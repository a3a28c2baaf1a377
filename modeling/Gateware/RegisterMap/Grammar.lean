import Gateware.RegisterMap.Bits
import Gateware.Text.Blank

/-!
# Structured lines of a register description

Addresses, ranges of indices, the bits of a field and literal reset values. Each reader takes a
whole line and refuses one that goes on after what it expects.
-/

namespace Gateware

open Text

namespace Grammar

def isGap (c : Char) : Bool := c == ' ' || c == '\t'

def skipGap (s : Text) : Text := s.dropWhile isGap

/-- What follows at least one space or tab. -/
def gap? (s : Text) : Option Text :=
  match s with
  | [] => none
  | c :: r => if isGap c then some (skipGap r) else none

/-- A word and the gap after it. -/
def wordGap? (w s : Text) : Option Text := (stripStart? w s).bind gap?

/-- What follows the mark of a hexadecimal literal. -/
def hexMark? (s : Text) : Option Text := (stripStart? "0x" s).or (stripStart? "0X" s)

/-! ### Addresses -/

/-- A hexadecimal literal and what follows it. -/
def hexNumber? (s : Text) : Option (Nat × Text) := do
  let r ← hexMark? s
  let n ← readNat? 16 wordBound (r.takeWhile isHexDigit)
  return (n, r.dropWhile isHexDigit)

/-- The step of an address, which is multiplied by the index, and what follows it. -/
def increment? (s : Text) : Option (Nat × Text) := do
  let r ← stripStart? "+" (skipGap s)
  let r := skipGap r
  let product := do
    let (step, r) ← hexNumber? r
    let r ← stripStart? "*" (skipGap r)
    let r ← stripStart? "n" (skipGap r)
    return (step, r)
  product.or ((stripStart? "n" r).map fun r => (1, r))

/-- A base address, and the step of an address that depends on the index. -/
structure Address where
  base : Nat
  step : Option Nat
deriving DecidableEq

def address? (s : Text) : Option Address := do
  let (base, r) ← hexNumber? s
  match increment? r with
  | some (step, r) => if (skipGap r).isEmpty then some ⟨base, some step⟩ else none
  | none => if (skipGap r).isEmpty then some ⟨base, none⟩ else none

/-! ### Ranges of indices -/

/-- A decimal number without leading zeros, and what follows it. -/
def index? (s : Text) : Option (Nat × Text) :=
  match s with
  | '0' :: r => some (0, r)
  | s => (readNat? 10 indexBound (s.takeWhile isDecDigit)).map fun n => (n, s.dropWhile isDecDigit)

def range? (line : Text) : Option IndexRange := do
  let r ← wordGap? "WHERE" (trimEnd line)
  let r ← wordGap? "n" r
  let r ← wordGap? "IS" r
  let r ← wordGap? "FROM" r
  let (first, r) ← index? r
  let r ← gap? r
  let r ← wordGap? "TO" r
  let (past, r) ← index? r
  if r.isEmpty then some ⟨first, past⟩ else none

/-! ### Fields -/

/-- The text between the brackets that open a field, and the reset value after them. -/
structure FieldSpec where
  bits : Text
  reset : Option Text
deriving DecidableEq

def fieldSpec? (line : Text) : Option FieldSpec := do
  let r ← stripStart? "[" line
  let (bits, r) ← cut? "]" r
  match gap? r with
  | some reset =>
    let reset := trim reset
    return ⟨trim bits, if reset.isEmpty then none else some reset⟩
  | none => if r.isEmpty then some ⟨trim bits, none⟩ else none

/-- A hexadecimal number with or without its mark. -/
def hexLiteral? (s : Text) : Option Nat := readNat? 16 wordBound ((hexMark? s).getD s)

/-- A bit number, or else an expression. -/
def bound (s : Text) : Bound :=
  let s := trim s
  match readCount? indexBound s with
  | some n => .num n
  | none => .expr s

end Grammar

end Gateware
