import Gateware.Text.Numeral

/-!
# JSON values

Values in the JSON notation, written over several lines with an indentation of two spaces.
-/

namespace Gateware

inductive Json where
  | null
  | bool (b : Bool)
  | num (n : Int)
  | str (s : Text)
  | arr (items : List Json)
  | obj (fields : List (Text × Json))

namespace Json

open Text

def strings (l : List Text) : Json := .arr (l.map .str)

def nat (n : Nat) : Json := .num n

def ofOption {α : Type} (f : α → Json) : Option α → Json
  | some a => f a
  | none => .null

/-! ### Writing -/

def hexDigit (n : Nat) : Char := (Nat.toDigits 16 n).getLast? |>.getD '0'

/-- Quotes, backslashes and control characters are escaped. -/
def escapeChar (c : Char) : Text :=
  if c == '"' then "\\\""
  else if c == '\\' then "\\\\"
  else if c == '\n' then "\\n"
  else if c == '\r' then "\\r"
  else if c == '\t' then "\\t"
  else if c.toNat == 0x08 then "\\b"
  else if c.toNat == 0x0c then "\\f"
  else if c.toNat < 0x20 then "\\u00" ++ [hexDigit (c.toNat / 16), hexDigit (c.toNat % 16)]
  else [c]

def quote (s : Text) : Text := ['"'] ++ s.flatMap escapeChar ++ ['"']

def indentation (depth : Nat) : Text := List.replicate (2 * depth) ' '

mutual

/-- The value as it stands after an indentation of `depth` steps. -/
def pretty (depth : Nat) : Json → Text
  | .null => "null"
  | .bool b => if b then "true" else "false"
  | .num n => decimalInt n
  | .str s => quote s
  | .arr [] => "[]"
  | .arr (j :: items) =>
    "[\n" ++ indentation (depth + 1) ++ pretty (depth + 1) j ++ prettyItems depth items
  | .obj [] => ['\x7b', '\x7d']
  | .obj ((k, j) :: fields) =>
    ['\x7b', '\n'] ++ indentation (depth + 1) ++ quote k ++ ": " ++ pretty (depth + 1) j ++
      prettyFields depth fields

/-- The items after the first one, and the closing bracket. -/
def prettyItems (depth : Nat) : List Json → Text
  | [] => ['\n'] ++ indentation depth ++ [']']
  | j :: items =>
    ",\n" ++ indentation (depth + 1) ++ pretty (depth + 1) j ++ prettyItems depth items

/-- The fields after the first one, and the closing brace. -/
def prettyFields (depth : Nat) : List (Text × Json) → Text
  | [] => ['\n'] ++ indentation depth ++ ['\x7d']
  | (k, j) :: fields =>
    ",\n" ++ indentation (depth + 1) ++ quote k ++ ": " ++ pretty (depth + 1) j ++
      prettyFields depth fields

end

end Json

end Gateware
