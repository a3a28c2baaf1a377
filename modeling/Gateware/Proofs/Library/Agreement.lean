import Gateware.Library.Reader
import Gateware.Proofs.FileTree.Reading

/-!
# Manifests that are read in two ways

A manifest is told by its script, by the source of its top module and by the component beside it. So
two readings of it, each in its own tree and with its own source of components, tell the same when
they find the same there and the sources agree (`read_agree`).
-/

namespace Gateware

open Text

variable {σ τ : Type} {A : ComponentSource σ} {B : ComponentSource τ} {R : σ → τ → Prop} {a : σ}
  {b : τ} {t u : FileTree}

/-- What two sources owe to each other at a path, each in its own tree: the same answer, after which
they are related again. -/
structure ComponentSource.Agree (A : ComponentSource σ) (B : ComponentSource τ) (u t : FileTree)
    (R : σ → τ → Prop) (p : Path) : Prop where
  answer : ∀ {a b}, R a b → (A.read a u p).2 = (B.read b t p).2
  keeps : ∀ {a b}, R a b → R (A.read a u p).1 (B.read b t p).1

namespace Manifest

/-- The manifest as its script alone tells it. -/
def written (path : Path) (v : Vendor) (s : Script) : Manifest :=
  let fileName := path.fileName?.getD []
  (ofScript s fileName ((stripEnd? v.manifestEnd fileName).getD fileName)).1

/-- The manifest makes its reader look for the top module at the path. -/
def Names (t : FileTree) (root path p : Path) : Prop :=
  ∃ v s, Vendor.ofManifest? (path.fileName?.getD []) = some v ∧ Script.ofFile t path = .ok s ∧
    ∃ dependency ∈ (written path v s).dependencies,
      isTopSource (written path v s).top dependency = true ∧
        p = dependencyPath root (path.parent?.getD ⟨[]⟩) dependency

/-- All paths at which the reader looks for the top module. -/
def namedPaths (t : FileTree) (root path : Path) : List Path :=
  match Vendor.ofManifest? (path.fileName?.getD []), Script.ofFile t path with
  | some v, .ok s => ((written path v s).dependencies.toList.filter
      (isTopSource (written path v s).top)).map (dependencyPath root (path.parent?.getD ⟨[]⟩))
  | _, _ => []

theorem mem_namedPaths {root path p : Path} (h : Names t root path p) :
    p ∈ namedPaths t root path := by
  obtain ⟨v, s, vendor, read, dependency, mem, source, rfl⟩ := h
  unfold namedPaths
  rw [vendor, read]
  exact List.mem_map_of_mem (List.mem_filter.mpr ⟨mem, source⟩)

theorem topParameters_congr {root dir : Path} {m : Manifest}
    (h : ∀ dependency ∈ m.dependencies, isTopSource m.top dependency = true →
      u.read (dependencyPath root dir dependency) = t.read (dependencyPath root dir dependency)) :
    topParameters u root dir m = topParameters t root dir m := by
  unfold topParameters
  cases found : m.dependencies.toList.find? (isTopSource m.top) with
  | none => rfl
  | some dependency =>
    simp only
    rw [h dependency (List.mem_of_find?_eq_some found) (List.find?_some found)]

theorem declaredParameters_agree {dir : Path}
    (there : u.isFile (dir.join componentName) = t.isFile (dir.join componentName))
    (agree : A.Agree B u t R (dir.join componentName)) (h : R a b) (v : Vendor) (s : Script)
    (fileName : Text) :
    (declaredParameters A u a v dir s fileName).parameters =
        (declaredParameters B t b v dir s fileName).parameters ∧
      (declaredParameters A u a v dir s fileName).warnings =
        (declaredParameters B t b v dir s fileName).warnings ∧
      R (declaredParameters A u a v dir s fileName).state
        (declaredParameters B t b v dir s fileName).state := by
  cases v with
  | intel => exact ⟨rfl, rfl, h⟩
  | xilinx =>
    unfold declaredParameters
    simp only [there]
    split
    · have answer := agree.answer h
      have keeps := agree.keeps h
      generalize A.read a u (dir.join componentName) = left at answer keeps
      generalize B.read b t (dir.join componentName) = right at answer keeps
      obtain ⟨a', result⟩ := left
      obtain ⟨b', result'⟩ := right
      subst answer
      cases result with
      | ok component => exact ⟨rfl, rfl, keeps⟩
      | error cause => exact ⟨rfl, rfl, keeps⟩
    · exact ⟨rfl, rfl, h⟩

theorem addParameters_agree {root dir : Path} {m : Manifest}
    (top : topParameters u root dir m = topParameters t root dir m)
    (there : u.isFile (dir.join componentName) = t.isFile (dir.join componentName))
    (agree : A.Agree B u t R (dir.join componentName)) (h : R a b) (v : Vendor) (s : Script)
    (fileName : Text) :
    (addParameters A u a root dir v s fileName m).2 =
        (addParameters B t b root dir v s fileName m).2 ∧
      R (addParameters A u a root dir v s fileName m).1
        (addParameters B t b root dir v s fileName m).1 := by
  obtain ⟨parameters, warnings, keeps⟩ := declaredParameters_agree there agree h v s fileName
  unfold addParameters
  rw [top]
  cases topParameters t root dir m with
  | mk found told =>
    cases found with
    | none => exact ⟨rfl, h⟩
    | some own =>
      simp only
      rw [parameters, warnings]
      exact ⟨rfl, keeps⟩

/-- The component beside a manifest. -/
def componentBeside (path : Path) : Path := (path.parent?.getD ⟨[]⟩).join componentName

/-- Readings that find the same scripts, sources and components tell the same manifest. -/
theorem read_agree {root path : Path} (script : u.find path = t.find path)
    (named : ∀ p, Names t root path p → u.find p = t.find p)
    (there : u.isFile (componentBeside path) = t.isFile (componentBeside path))
    (agree : A.Agree B u t R (componentBeside path)) (h : R a b) :
    (read A u a root path).2 = (read B t b root path).2 ∧
      R (read A u a root path).1 (read B t b root path).1 := by
  unfold read
  simp only [Script.ofFile_congr script]
  split
  · exact ⟨rfl, h⟩
  rename_i v vendor
  split
  · exact ⟨rfl, h⟩
  split
  · exact ⟨rfl, h⟩
  rename_i s found
  have top := @topParameters_congr t u root (path.parent?.getD ⟨[]⟩) (written path v s)
    fun dependency mem source =>
      FileTree.read_congr (named _ ⟨v, s, vendor, found, dependency, mem, source, rfl⟩)
  obtain ⟨same, keeps⟩ := addParameters_agree top there agree h v s (path.fileName?.getD [])
  refine ⟨?_, keeps⟩
  unfold written at same
  simp only at same
  simp only [same]

end Manifest

end Gateware
