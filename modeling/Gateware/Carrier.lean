import Gateware.Text.WordChar

/-!
# Carrier boards

A vendor's project script tells the boards apart by the end of the project's name.
-/

namespace Gateware.Carrier

open Text

/-- A guard on the end of the project's name: the board it names, and the text after it. -/
def guard? (s : Text) : Option (Text × Text) := do
  let r ← stripStart? "regexp \"_" s
  let (board, r) ← takeWord? r
  let r ← stripStart? "$\" $project_name" r
  return (board, r)

def distinct (l : List Text) : List Text :=
  l.foldl (fun seen a => if seen.contains a then seen else seen ++ [a]) []

/-- The boards that the lines name, in the order in which they are first seen. -/
def boards (lines : List Text) : List Text :=
  distinct (lines.flatMap (findAll fun _ s => guard? s))

end Gateware.Carrier
