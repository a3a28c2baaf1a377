import Gateware.Text.Basic

/-!
# Numerals

Numbers written in a base up to sixteen and read back. A reader takes the bound that the value
stays below, so that a number too large is refused and never wrapped.
-/

namespace Gateware.Text

/-- The value of an ASCII digit in bases up to sixteen, of either case. -/
def digitValue? (base : Nat) (c : Char) : Option Nat :=
  let v :=
    if '0' ≤ c ∧ c ≤ '9' then some (c.toNat - '0'.toNat)
    else if 'a' ≤ c ∧ c ≤ 'f' then some (c.toNat - 'a'.toNat + 10)
    else if 'A' ≤ c ∧ c ≤ 'F' then some (c.toNat - 'A'.toNat + 10)
    else none
  v.filter (· < base)

def isDecDigit (c : Char) : Bool := (digitValue? 10 c).isSome

def isHexDigit (c : Char) : Bool := (digitValue? 16 c).isSome

/-- The value of a run of digits that follow a part of value `acc`. -/
def readDigits? (base : Nat) : (acc : Nat) → Text → Option Nat
  | acc, [] => some acc
  | acc, c :: s => (digitValue? base c).bind fun d => readDigits? base (acc * base + d) s

/-- A number of one or more digits, below `bound`. -/
def readNat? (base bound : Nat) (s : Text) : Option Nat :=
  if s.isEmpty then none else (readDigits? base 0 s).filter (· < bound)

/-- A decimal number below `bound`, with an optional plus sign. -/
def readCount? (bound : Nat) (s : Text) : Option Nat :=
  match s with
  | '+' :: r => readNat? 10 bound r
  | r => readNat? 10 bound r

/-- A decimal number with an optional sign, from `-bound` up to below `bound`. -/
def readInt? (bound : Nat) (s : Text) : Option Int :=
  match s with
  | '-' :: r => (readNat? 10 (bound + 1) r).map fun n => -(n : Int)
  | r => (readCount? bound r).map Int.ofNat

def decimal (n : Nat) : Text := Nat.toDigits 10 n

def decimalInt : Int → Text
  | .ofNat n => decimal n
  | .negSucc n => '-' :: decimal (n + 1)

/-- Hexadecimal digits in upper case, without leading zeros. -/
def hexadecimal (n : Nat) : Text := (Nat.toDigits 16 n).map Char.toUpper

end Gateware.Text
