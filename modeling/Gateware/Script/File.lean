import Gateware.FileTree.Basic
import Gateware.Script.Basic

/-!
# Scripts in files
-/

namespace Gateware

namespace Script

inductive Error where
  | notFound (path : Path)
  | unreadable (path : Path) (cause : FileError)
  deriving DecidableEq

def Error.message : Error → Text
  | .notFound path => "File " ++ path.text ++ " doesn't exist!"
  | .unreadable path cause => "Failed to read " ++ path.text ++ ": " ++ cause.message

def ofFile (t : FileTree) (path : Path) : Except Error Script :=
  if t.isFile path then
    match t.read path with
    | .ok source => .ok (ofText source)
    | .error cause => .error (.unreadable path cause)
  else .error (.notFound path)

end Script

/-- What is wrong with a script file: it cannot be read, or its lines are in part unusable. -/
inductive FileWarning (ω : Type) where
  | unread (cause : Script.Error)
  | content (warning : ω)
  deriving DecidableEq

def FileWarning.message {ω : Type} (f : ω → Text) : FileWarning ω → Text
  | .unread cause => cause.message
  | .content warning => f warning

/-- What the script in a file tells, or the default when it cannot be read. -/
def Script.readFile {α ω : Type} (t : FileTree) (path : Path) (default : α)
    (f : List Text → α × List ω) : α × List (FileWarning ω) :=
  match Script.ofFile t path with
  | .error cause => (default, [.unread cause])
  | .ok script =>
    let (a, warnings) := f script.lines
    (a, warnings.map .content)

end Gateware
