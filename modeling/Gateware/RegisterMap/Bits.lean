import Gateware.Text.Numeral

/-!
# Bits and index ranges

The bits that a field occupies, and the range of indices over which a register or a field is
repeated. `bitLength_le_iff` ties the length of a value to the width it fits in. A width is kept in
a machine word like the bit numbers, and is the number of bits when that fits (`width?_eq_size?`).
-/

namespace Gateware

/-- Addresses and reset values are below this bound; arithmetic on them wraps around. -/
def wordBound : Nat := Nat.pow 2 64

/-- Indices, bit numbers and widths are below this bound. -/
def indexBound : Nat := Nat.pow 2 32

/-- The indices from `first` up to, and without, `past`. -/
structure IndexRange where
  first : Nat
  past : Nat
deriving DecidableEq

namespace IndexRange

def length (r : IndexRange) : Nat := r.past - r.first

def isEmpty (r : IndexRange) : Bool := r.length == 0

/-- The indices in rising order. -/
def indices (r : IndexRange) : List Nat := List.range' r.first r.length

/-- The least index. -/
def least? (r : IndexRange) : Option Nat := if r.isEmpty then none else some r.first

/-- The greatest index. -/
def greatest? (r : IndexRange) : Option Nat := if r.isEmpty then none else some (r.past - 1)

def describe (r : IndexRange) : Text :=
  "Where n is from " ++ Text.decimal r.first ++ " to " ++ Text.decimal r.past ++ "."

theorem isEmpty_eq_false_iff {r : IndexRange} : r.isEmpty = false ↔ r.first < r.past := by
  simp only [isEmpty, length, beq_eq_false_iff_ne]
  omega

end IndexRange

/-- The number of a bit, or an expression for it. -/
inductive Bound where
  | num (n : Nat)
  | expr (e : Text)
deriving DecidableEq

def Bound.text : Bound → Text
  | .num n => Text.decimal n
  | .expr e => e

/-- The bits of a field: a span, or one bit for each index of the field's range. -/
inductive Bits where
  | span (high low : Bound)
  | indexed
deriving DecidableEq

namespace Bits

def single (n : Nat) : Bits := .span (.num n) (.num n)

/-- The number of bits, where it is known. -/
def size? : Bits → Option Nat
  | .span (.num high) (.num low) => some (high - low + 1)
  | .span _ _ => none
  | .indexed => some 1

/-- The number of bits as a field keeps it, in a word: that of a span over all bit numbers wraps
around to zero. -/
def width? (b : Bits) : Option Nat := b.size?.map (· % indexBound)

/-- The number of bits fits into a word. -/
def Measurable (b : Bits) : Prop := ∀ n ∈ b.size?, n < indexBound

instance (b : Bits) : Decidable b.Measurable :=
  inferInstanceAs (Decidable (∀ n ∈ b.size?, n < indexBound))

theorem width?_eq_size? {b : Bits} (h : b.Measurable) : b.width? = b.size? := by
  unfold width?
  cases size : b.size? with
  | none => rfl
  | some n => exact congrArg some (Nat.mod_eq_of_lt (h n size))

example : (span (.num 4294967295) (.num 0)).width? = some 0 := by decide

def text : Bits → Text
  | .span high low =>
    if high = low then "[" ++ high.text ++ "]" else "[" ++ high.text ++ ":" ++ low.text ++ "]"
  | .indexed => "[n]"

end Bits

/-- The number of binary digits of a number; zero has none. -/
def bitLength (n : Nat) : Nat := if n = 0 then 0 else n.log2 + 1

theorem bitLength_le_iff {n w : Nat} : bitLength n ≤ w ↔ n < Nat.pow 2 w := by
  unfold bitLength
  split
  · next h =>
    subst h
    exact ⟨fun _ => Nat.two_pow_pos w, fun _ => Nat.zero_le w⟩
  · next h => exact Nat.add_one_le_iff.trans (Nat.log2_lt h)

end Gateware
