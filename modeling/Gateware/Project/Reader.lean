import Gateware.Library.Reader
import Gateware.Project.Basic
import Gateware.Project.Closure

/-!
# Reading a project

A project is read from its entry script and the scripts reached from it. The files that it depends
on are those scripts and the listed files that stand outside its directory.
-/

namespace Gateware

open Text

namespace Project

/-- A project as it is read, with the scripts that it is read from. -/
structure Reading where
  key : Text
  project : Project
  scripts : List (Path × Script)
  warnings : List ProjectWarning

def instances (v : Vendor) (s : Script) : List Text :=
  (s.commands v.instanceCall.1).filterMap fun line =>
    (Script.splitWords line)[v.instanceCall.2]?.map Script.unquote

/-- The files that the project's own script lists, if it was read. -/
def listedFiles (d : Closure.Place) (projectScript : Path) (scripts : List (Path × Script)) :
    List Path :=
  match scripts.find? fun e => e.1.parts == projectScript.parts with
  | none => []
  | some (_, s) =>
    (s.commands Vendor.projectFilesCall).flatMap fun line => (Script.listItems line).map d.resolve

/-- The files outside a directory as they are seen from it, in falling order. -/
def outsideFiles (directory : Path) (files : List Path) : List Text :=
  (KeySet.ofList ((files.filter fun f => !f.startsWith directory).map fun f =>
    (f.relativeTo directory).toSlash)).toList.reverse

def directory (root : Path) : Path := root.join "projects"

def nameOf (key : Text) : Text := key.map fun c => if c = '/' then '_' else c

/-- The project in a directory, from the scripts that were reached. -/
def ofScripts (v : Vendor) (d : Closure.Place) (key : Text) (projectScript : Path)
    (scripts : List (Path × Script)) : Project where
  name := nameOf key
  vendor := v
  libraries := .ofList (scripts.flatMap fun e => instances v e.2)
  files := outsideFiles d.directory
    (scripts.map Prod.fst ++ listedFiles d projectScript scripts)

/-- Reads a project from its entry. `known` holds every name that a script of the tree gives to
another. -/
def ofEntry (t : FileTree) (known : List Text) (root entry : Path) :
    Except ManifestError Reading :=
  match Vendor.ofProjectEntry? (entry.fileName?.getD []) with
  | none => .error (.unknownManifest entry)
  | some v =>
    let dir := (entry.parent?.getD ⟨[]⟩).normalize
    match dir.after? (directory root).normalize with
    | none => .error (.outsideProjects entry)
    | some inside =>
      let key := inside.toSlash
      let d : Closure.Place := ⟨root, dir⟩
      let projectScript := dir.join Vendor.projectScript
      let reached := Closure.ofEntries t known d entry projectScript
      .ok ⟨key, ofScripts v d key projectScript reached.scripts, reached.scripts, reached.warnings⟩

def ofFile (t : FileTree) (root entry : Path) : Except ManifestError Reading :=
  ofEntry t (Closure.allTargets t) root entry

/-- What is read from the entry of a project, which stands in a directory of projects. -/
theorem ofFile_eq_ok_iff {t : FileTree} {root entry : Path} {reading : Reading} :
    let dir := (entry.parent?.getD ⟨[]⟩).normalize
    let own := dir.join Vendor.projectScript
    let reached := Closure.ofEntries t (Closure.allTargets t) ⟨root, dir⟩ entry own
    ofFile t root entry = .ok reading ↔
      ∃ v inside, Vendor.ofProjectEntry? (entry.fileName?.getD []) = some v ∧
        dir.after? (directory root).normalize = some inside ∧
        reading = ⟨inside.toSlash,
          ofScripts v ⟨root, dir⟩ inside.toSlash own reached.scripts, reached.scripts,
          reached.warnings⟩ := by
  intro dir own reached
  unfold ofFile ofEntry
  constructor
  · intro h
    split at h
    · cases h
    · rename_i v named
      simp only at h
      split at h
      · cases h
      · rename_i inside placed
        exact ⟨v, inside, named, placed, (Except.ok.inj h).symm⟩
  · rintro ⟨v, inside, named, placed, rfl⟩
    simp only [named, placed, dir]
    rfl

end Project

end Gateware
