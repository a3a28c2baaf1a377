import Gateware.Path.Basic

/-!
# Normal paths

A path is normal when it has no single point, and steps up only in front. Normal forms are a
matter of spelling: no file is looked at.
-/

namespace Gateware.Path

/-- Puts a part on a path whose last part comes first. A step up removes a name. -/
def push (above : List PathPart) (part : PathPart) : List PathPart :=
  match part, above with
  | .here, _ => above
  | .up, .name _ :: rest => rest
  | _, _ => part :: above

/-- The parts without single points, and without each name that a step up leaves. -/
def reduce (l : List PathPart) : List PathPart := (l.foldl push []).reverse

def normalize (p : Path) : Path := ofParts (reduce p.parts)

/-- The number of parts that two lists have in common in front. -/
def commonLength : List PathPart → List PathPart → Nat
  | a :: l, b :: m => if a = b then commonLength l m + 1 else 0
  | _, _ => 0

/-- The steps up, then the parts down, that lead from the parts `base` to the parts `l`. -/
def route (l base : List PathPart) : List PathPart :=
  let common := commonLength l base
  List.replicate (base.length - common) .up ++ l.drop common

def relativeTo (p base : Path) : Path :=
  ofParts (route p.normalize.parts base.normalize.parts)

end Gateware.Path
