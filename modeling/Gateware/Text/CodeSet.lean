import Gateware.Text.Basic

/-!
# Sets of characters

A set of characters is given by the code points at which membership changes, in rising order.
-/

namespace Gateware.Text

/-- The code points at which one enters or leaves the set, in turn, in rising order. -/
structure CodeSet where
  bounds : List Nat

/-- A character belongs to the set when an odd number of changes lie at or below it. -/
def CodeSet.contains (s : CodeSet) (c : Char) : Bool :=
  (s.bounds.takeWhile (· ≤ c.toNat)).length % 2 == 1

end Gateware.Text
