import Gateware.Proofs.FileTree.Ending
import Gateware.Proofs.Repository.Agreement
import Gateware.Proofs.Repository.Listing

/-!
# What a run leaves as it reads it

A run finds the same in a tree that differs only in what a run makes, as long as no file of the
repository refers to that (`alike_of_changes`).
-/

namespace Gateware

open Text

theorem FileTree.Leads.normalize {t : FileTree} {root : Path} {R : Location}
    (h : Leads t root R) : Leads t root.normalize R where
  way := by
    have led := h.way
    rw [Path.steps_eq] at led
    rw [Path.steps_eq, Path.parts_normalize, start_of_absolute (Path.isAbsolute_normalize root)]
    exact follow_reduce led
  directory := h.directory

theorem FileTree.Leads.start {t : FileTree} {root : Path} {R : Location} (h : Leads t root R) :
    t.node? (t.start root) = some .directory := by
  cases steps : root.steps with
  | nil =>
    have way := h.way
    rw [steps] at way
    cases way
    exact h.directory
  | cons c rest =>
    obtain ⟨l, stop, directory⟩ := @directory_of_onward t (t.start root) R [] rest c (steps ▸ h.way)
    cases stop
    exact directory

/-- A dependency is looked for by a normal path from the root of the tree or from where the given
directories are. -/
theorem start_dependencyPath {t : FileTree} {root dir : Path} {dependency : Text}
    (same : dir.isAbsolute = root.isAbsolute) :
    ∃ q : Path, dependencyPath root dir dependency = q.normalize ∧
      (t.start q.normalize = [] ∨ t.start q.normalize = t.start root) := by
  unfold dependencyPath
  split
  · rename_i rest _
    refine ⟨_, rfl, .inr (FileTree.start_of_absolute ?_)⟩
    exact (Path.isAbsolute_normalize _).trans
      (Path.isAbsolute_join (Path.head?_dropWhile_separator rest))
  · refine ⟨_, rfl, ?_⟩
    by_cases head : dependency.head? = some Path.separator
    · refine .inl ?_
      unfold FileTree.start
      rw [Path.isAbsolute_normalize, if_pos (Path.isAbsolute_join_root head)]
    · exact .inr (FileTree.start_of_absolute ((Path.isAbsolute_normalize _).trans
        ((Path.isAbsolute_join head).trans same)))

namespace Repository

open FileTree

variable {r : Repository} {t u : FileTree} {R : Location}

/-! ### The directories of a repository -/

theorem below_libraryDirectory (r : Repository) :
    Path.Below r.root [libraryName] r.libraryDirectory :=
  (Path.Below.refl r.root).join plain_libraryName

theorem below_projectDirectory (r : Repository) :
    Path.Below r.root [projectsName] r.projectDirectory :=
  (Path.Below.refl r.root).join plain_projectsName

theorem below_testbenches (r : Repository) :
    Path.Below r.root [testbenchesName] (r.root.join testbenchesName) :=
  (Path.Below.refl r.root).join plain_testbenchesName

theorem below_carrierScript (r : Repository) (v : Vendor) :
    Path.Below r.root [projectsName, "scripts", v.carrierScript] (r.carrierScript v) :=
  ((below_projectDirectory r).join (by decide)).join (by cases v <;> decide)

def mapDirectory (r : Repository) : Path := (r.root.join "docs").join "regmap"

theorem below_mapDirectory (r : Repository) :
    Path.Below r.root ["docs", "regmap"] r.mapDirectory :=
  ((Path.Below.refl r.root).join (by decide)).join (by decide)

theorem quiet_library : Quiet [libraryName] := by decide

theorem quiet_projects : Quiet [projectsName] := by decide

theorem quiet_maps : Quiet ["docs", "regmap"] := by decide

/-! ### The sources of a repository -/

section

variable (sound : t.Sound) (leads : Leads t r.root R)

include sound leads

theorem source_of_manifest {s : Vendor × Path} (h : s ∈ r.manifests t) :
    ∃ d n, n ≠ makefileName ∧ SourceBelow t r.root R [libraryName] d n s.2 :=
  listed sound leads quiet_library (below_libraryDirectory r) (by decide) (by decide) h

theorem source_of_projectEntry {p : Path} (h : p ∈ r.projectEntries t) :
    ∃ d n, n ≠ makefileName ∧ SourceBelow t r.root R [projectsName] d n p := by
  obtain ⟨s, hs, rfl⟩ := List.mem_map.mp h
  exact listed sound leads quiet_projects (below_projectDirectory r) (by decide) (by decide) hs

/-- Files of the repository refer to others by normal paths that start at a directory. -/
theorem Refers.normal {p : Path} (h : Refers r t p) :
    ∃ q : Path, p = q.normalize ∧ t.node? (t.start q.normalize) = some .directory := by
  have begun {q : Path} (from' : t.start q = [] ∨ t.start q = t.start r.root) :
      t.node? (t.start q) = some .directory := by
    rcases from' with root | own
    · rw [root]
      rfl
    · rw [own]
      exact leads.start
  cases h with
  | @top s listed named =>
    obtain ⟨v, script, -, -, dependency, -, -, rfl⟩ := named
    obtain ⟨d, n, -, source⟩ := source_of_manifest sound leads listed
    obtain ⟨above, parent, below⟩ := source.below.parent
    rw [parent, Option.getD_some]
    obtain ⟨q, same, from'⟩ := @start_dependencyPath t _ _ dependency below.absolute
    exact ⟨q, same, begun from'⟩
  | @script entry listed named =>
    obtain ⟨caller, -, next⟩ := named
    obtain ⟨script, line, target, -, -, -, rfl⟩ := Closure.mem_next.mp next
    obtain ⟨d, n, -, source⟩ := source_of_projectEntry sound leads listed
    obtain ⟨above, parent, below⟩ := source.below.parent
    have absolute : (Project.placeOf r.root entry).directory.isAbsolute = r.root.isAbsolute := by
      unfold Project.placeOf
      rw [parent, Option.getD_some, Path.isAbsolute_normalize]
      exact below.absolute
    obtain ⟨q, same, from'⟩ := @start_dependencyPath t _ _ target absolute
    exact ⟨q, same, begun from'⟩

end

/-- A run finds the same in a tree that differs in what it makes, if it finds the same there by what
the files refer to. -/
theorem alike_of_changes (sound : t.Sound) (leads : Leads t r.root R) (changes : Changes t u R)
    (reference : ∀ p, Refers r t p → u.find p = t.find p) : Alike r t u where
  mapSources := named_congr changes leads quiet_maps (below_mapDirectory r) (by decide)
  interfaceScripts := congrArg (List.map Prod.snd)
    (named_congr changes leads quiet_library (below_libraryDirectory r) (by decide))
  manifests := named_congr changes leads quiet_library (below_libraryDirectory r) (by decide)
  projectEntries := congrArg (List.map Prod.snd)
    (named_congr changes leads quiet_projects (below_projectDirectory r) (by decide))
  testbenches := by
    refine find_below changes leads (below_testbenches r) fun front before made => ?_
    have short := before.length_le
    rcases made with ⟨rest, more, rfl⟩ | ⟨d, rfl | rfl⟩
    · cases rest with
      | nil => exact absurd rfl more
      | cons => simp at short
    · simp at short
    · simp at short
  carriers v := find_quiet changes leads (below_carrierScript r v) (by cases v <;> decide)
  map s hs := by
    obtain ⟨d, n, other, source⟩ :=
      listed sound leads quiet_maps (below_mapDirectory r) (by decide) (by decide) hs
    exact find_source changes leads quiet_maps source other
  interface p hp := by
    obtain ⟨s, hs, rfl⟩ := List.mem_map.mp hp
    obtain ⟨d, n, other, source⟩ :=
      listed sound leads quiet_library (below_libraryDirectory r) (by decide) (by decide) hs
    exact find_source changes leads quiet_library source other
  manifest s hs := by
    obtain ⟨d, n, other, source⟩ := source_of_manifest sound leads hs
    refine ⟨find_source changes leads quiet_library source other, ?_⟩
    obtain ⟨q, parent, above⟩ := source.below.parent
    unfold Manifest.componentBeside
    rw [parent, Option.getD_some]
    exact find_in_directory changes leads quiet_library (above.join (by decide))
      source.furnished (by decide)
  project p hp := by
    obtain ⟨d, n, other, source⟩ := source_of_projectEntry sound leads hp
    obtain ⟨q, parent, above⟩ := source.below.parent
    have script : Path.Below r.root.normalize ([projectsName] ++ d ++ [Vendor.projectScript])
        (r.projectScript p) := by
      unfold projectScript Project.placeOf
      rw [parent, Option.getD_some]
      exact above.normalize.join (by decide)
    exact ⟨find_in_directory changes leads.normalize quiet_projects source.below.normalize
        source.furnished other,
      find_in_directory changes leads.normalize quiet_projects script source.furnished (by decide),
      find_in_directory changes leads.normalize.normalize quiet_projects script.normalize
        source.furnished (by decide)⟩
  reference := reference

end Repository

end Gateware
