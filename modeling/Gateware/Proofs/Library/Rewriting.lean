import Gateware.Proofs.Library.Sharing
import Gateware.Proofs.Path.Relative

/-!
# Dependencies named from the root

A makefile names every dependency from the directory of its library, a manifest may name it from the
root of the repository. Both names lead to one file (`expandRoot_leads`), also where the way climbs
out of the repository.
-/

namespace Gateware

open Text

namespace Library

variable {root : Path} {key dependency : Text} {names : List Text}

/-! ### Dependencies in a makefile -/

theorem below_join_library (root : Path) (hk : (Path.mk key).parts = names.map .name) :
    Path.Below root ("library".toList :: names) ((root.join "library").join key) := by
  obtain ⟨steps, relative, -⟩ := Path.steps_of_names hk
  have head : key.head? ≠ some Path.separator := beq_eq_false_iff_ne.mp relative
  have library : Path.Below root ["library".toList] (root.join "library") :=
    (Path.Below.refl root).join (by decide)
  refine ⟨?_, (Path.isAbsolute_join head).trans library.absolute⟩
  rw [Path.steps_join head, library.steps, steps, List.append_assoc]
  rfl

theorem parts_normalize_libraryRoot_join (hk : (Path.mk key).parts = names.map .name) :
    (libraryRoot.join key).normalize.parts = ("library".toList :: names).map .name := by
  have below : Path.Below ⟨[]⟩ ("library".toList :: names) (libraryRoot.join key) :=
    below_join_library ⟨[]⟩ hk
  rw [Path.parts_normalize, Path.reduce_parts, below.steps, below.absolute]
  exact Path.reduce_names [] _

theorem dependencyPath_rootToken (root dir : Path) (rest : Text) :
    dependencyPath root dir (Vendor.rootToken ++ rest) =
      (root.join (rest.dropWhile (· == '/'))).normalize := by
  unfold dependencyPath
  rw [stripStart?_append]

theorem dependencyPath_own (root dir : Path) (h : ¬ Vendor.rootToken <+: dependency) :
    dependencyPath root dir dependency = (dir.join dependency).normalize := by
  unfold dependencyPath
  rw [stripStart?_eq_none_iff.mpr h]

/-- The text in a makefile, read from the directory of the library, names the file that the
dependency names. -/
theorem normalize_join_expandRoot (root : Path) (hk : (Path.mk key).parts = names.map .name)
    (dependency : Text) :
    (((root.join "library").join key).join
        (expandRoot (libraryRoot.join key) dependency)).normalize =
      dependencyPath root ((root.join "library").join key) dependency := by
  by_cases token : Vendor.rootToken <+: dependency
  · obtain ⟨rest, rfl⟩ := token
    have relative : (Path.mk (rest.dropWhile (· == '/'))).isAbsolute = false :=
      beq_eq_false_iff_ne.mpr (Path.head?_dropWhile_separator rest)
    rw [expandRoot_rootToken, dependencyPath_rootToken]
    exact (below_join_library root hk).normalize_join_relativeTo
      (parts_normalize_libraryRoot_join hk) relative
  · rw [expandRoot_own _ token, dependencyPath_own root _ token]

/-- What is rewritten does not read as a dependency named from the root. -/
theorem not_rootToken_expandRoot (hk : (Path.mk key).parts = names.map .name)
    (unmarked : ∀ rest, dependency = Vendor.rootToken ++ rest →
      ∀ c ∈ (Path.mk rest).parts, c.text.head? ≠ some '$')
    (token : Vendor.rootToken <+: dependency) :
    ¬ Vendor.rootToken <+: expandRoot (libraryRoot.join key) dependency := by
  obtain ⟨rest, rfl⟩ := token
  have relative : (Path.mk (rest.dropWhile (· == '/'))).isAbsolute = false :=
    beq_eq_false_iff_ne.mpr (Path.head?_dropWhile_separator rest)
  have head := Path.head?_toSlash_relativeTo relative (parts_normalize_libraryRoot_join hk)
    (a := '$') (by decide) fun c hc => unmarked rest rfl c
      (Path.steps_subset_parts _ (Path.steps_dropWhile rest ▸ hc))
  rw [expandRoot_rootToken]
  rintro ⟨more, same⟩
  rw [← same] at head
  exact head rfl

/-- The text that a makefile has for a dependency names the file that is opened for the dependency
itself, read from the directory of the library or as a dependency in its turn. -/
theorem expandRoot_leads (root : Path) (hk : (Path.mk key).parts = names.map .name)
    (unmarked : ∀ rest, dependency = Vendor.rootToken ++ rest →
      ∀ c ∈ (Path.mk rest).parts, c.text.head? ≠ some '$') :
    (((root.join "library").join key).join
        (expandRoot (libraryRoot.join key) dependency)).normalize =
      dependencyPath root ((root.join "library").join key) dependency ∧
    dependencyPath root ((root.join "library").join key)
        (expandRoot (libraryRoot.join key) dependency) =
      dependencyPath root ((root.join "library").join key) dependency := by
  have leads := normalize_join_expandRoot root hk dependency
  refine ⟨leads, ?_⟩
  by_cases token : Vendor.rootToken <+: dependency
  · rw [dependencyPath_own root _ (not_rootToken_expandRoot hk unmarked token), leads]
  · rw [expandRoot_own _ token]

/-- A file beside the repository, named from its root with a detour, in a tree that is itself reached
by climbing. -/
theorem expandRoot_leads_besideRepository :
    let root : Path := ⟨"./../hdl"⟩
    let dependency : Text := "$ad_hdl_dir/../boards/./zed/../top.v"
    let written : Text := "../../../../boards/top.v"
    (Path.mk "jesd204/rx").parts = ["jesd204".toList, "rx".toList].map .name ∧
      expandRoot (libraryRoot.join "jesd204/rx") dependency = written ∧
      (((root.join "library").join "jesd204/rx").join written).normalize = ⟨"../boards/top.v"⟩ ∧
      dependencyPath root ((root.join "library").join "jesd204/rx") written =
        dependencyPath root ((root.join "library").join "jesd204/rx") dependency := by
  have key : (Path.mk "jesd204/rx").parts = ["jesd204".toList, "rx".toList].map .name := by decide
  have written : expandRoot (libraryRoot.join "jesd204/rx") "$ad_hdl_dir/../boards/./zed/../top.v" =
      "../../../../boards/top.v".toList := by decide
  obtain ⟨leads, again⟩ := @expandRoot_leads "jesd204/rx" "$ad_hdl_dir/../boards/./zed/../top.v"
    ["jesd204", "rx"] ⟨"./../hdl"⟩ key fun rest same => by
      have after : Vendor.rootToken ++ "/../boards/./zed/../top.v".toList =
          Vendor.rootToken ++ rest := same
      obtain rfl := List.append_cancel_left after
      decide
  rw [written] at leads again
  exact ⟨key, written, leads.trans (by decide), again⟩

end Library

end Gateware
