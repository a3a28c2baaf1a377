import Gateware.FileTree.Basic
import Gateware.Text.Letter
import Gateware.Vendor.Basic

/-!
# Repositories

A repository has directories for libraries and projects, and may have one for test benches. Its
sources are found by their names.
-/

namespace Gateware

open Text

structure Repository where
  root : Path
deriving DecidableEq

inductive DiscoverError where
  | inaccessible (start : Path)
  | outside (start : Path)
  deriving DecidableEq

def DiscoverError.message : DiscoverError → Text
  | .inaccessible start => "Can't access " ++ start.text
  | .outside start =>
    start.text ++ " is not inside an HDL repository (no library/ and projects/ found)"

namespace Repository

def libraryName : Text := "library"
def projectsName : Text := "projects"
def testbenchesName : Text := "testbenches"

/-- A location and those above it, up to the root. -/
def ancestors (l : Location) : List Location :=
  (List.range (l.length + 1)).reverse.map l.take

/-- Whether a location is the directory of a repository. The test benches inside a repository are
none. -/
def isRoot (t : FileTree) (l : Location) : Bool :=
  l.getLast? != some testbenchesName &&
    t.node? (l ++ [libraryName]) == some .directory &&
    t.node? (l ++ [projectsName]) == some .directory

/-- The innermost repository that holds a path. -/
def discover (t : FileTree) (start : Path) : Except DiscoverError Repository :=
  match t.find start with
  | .error _ => .error (.inaccessible start)
  | .ok (l, _) =>
    match (ancestors l).find? (isRoot t) with
    | some root => .ok ⟨FileTree.absolutePath root⟩
    | none => .error (.outside (FileTree.absolutePath l))

/-! ### Places -/

def libraryDirectory (r : Repository) : Path := r.root.join libraryName

def projectDirectory (r : Repository) : Path := r.root.join projectsName

def hasTestbenches (r : Repository) (t : FileTree) : Bool :=
  t.isDirectory (r.root.join testbenchesName)

def packageDirectory (r : Repository) : Path :=
  ((r.root.join testbenchesName).join libraryName).join "regmaps"

def carrierScript (r : Repository) (v : Vendor) : Path :=
  (r.projectDirectory.join "scripts").join v.carrierScript

/-! ### Sources -/

/-- The key that the name of a register description tells. -/
def mapKey? (fileName : Text) : Option Text :=
  ((stripStart? "adi_regmap_" fileName).bind (stripEnd? ".txt")).filter fun key =>
    !key.isEmpty && key.all fun c => isLetter c || isNumber c || c == '_'

/-- The files of a directory for whose name `f` has a value. -/
def named {α : Type} (t : FileTree) (dir : Path) (f : Text → Option α) : List (α × Path) :=
  (t.filesUnder dir).filterMap fun p => (p.fileName?.bind f).map fun a => (a, p)

def mapSources (r : Repository) (t : FileTree) : List (Text × Path) :=
  named t ((r.root.join "docs").join "regmap") mapKey?

def manifests (r : Repository) (t : FileTree) : List (Vendor × Path) :=
  named t r.libraryDirectory fun n =>
    if n = Vendor.interfacesScript then none else Vendor.ofManifest? n

def interfaceScripts (r : Repository) (t : FileTree) : List Path :=
  (named t r.libraryDirectory fun n =>
    if n = Vendor.interfacesScript then some () else none).map Prod.snd

def projectEntries (r : Repository) (t : FileTree) : List Path :=
  (named t r.projectDirectory Vendor.ofProjectEntry?).map Prod.snd

end Repository

end Gateware
