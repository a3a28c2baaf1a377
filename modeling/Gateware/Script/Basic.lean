import Gateware.Script.Line
import Gateware.Script.Words
import Gateware.Sorted.Set

/-!
# Scripts

A script is the list of its logical lines, each of which calls the command that its first word
names.
-/

namespace Gateware

structure Script where
  lines : List Text
deriving DecidableEq

namespace Script

def ofText (source : Text) : Script := ⟨logicalLines source⟩

def commands (s : Script) (name : Text) : List Text :=
  s.lines.filter fun line => commandName? line == some name

/-- The first line that calls the first of `names` which is called at all. -/
def findCommand? (s : Script) (names : List Text) : Option Text :=
  names.findSome? fun name => (s.commands name).head?

/-- What the matcher finds on the lines that call `name`. -/
def captures (s : Script) (m : Option Char → Text → Option (Text × Text)) (name : Text) :
    KeySet Text :=
  .ofList ((s.commands name).flatMap (Text.findAll m))

end Script

end Gateware
