import Gateware.Text.Blank
import Gateware.Text.WordChar

/-!
# Parameters of a module

The declarations of parameters in a hardware description, read without the grammar around them:
comments are removed, then each `parameter` with a name and a value counts.
-/

namespace Gateware

open Text

structure ModuleParameter where
  name : Text
  default : Text
deriving DecidableEq, Repr

namespace Verilog

/-! ### Comments -/

def blockComment? (s : Text) : Option Text :=
  (stripStart? "/*" s).bind fun r => (cut? "*/" r).map Prod.snd

def lineComment? (s : Text) : Option Text :=
  (stripStart? "//" s).map (·.dropWhile (· != '\n'))

def remove (m : Text → Option Text) (s : Text) : Text :=
  substitute (fun _ t => (m t).map fun r => ([], r)) s

/-- The source without comments between marks, then without those up to the end of a line. -/
def removeComments (s : Text) : Text := remove lineComment? (remove blockComment? s)

/-! ### Declarations -/

/-- The words that may stand before the name of a parameter as its type. -/
def typeWords : List Text := [
  "integer", "int", "longint", "real", "string", "bit", "logic", "reg", "signed", "unsigned"]

def skipBlanks? (s : Text) : Option Text :=
  match s with
  | [] => none
  | c :: r => if isBlank c then some (r.dropWhile isBlank) else none

/-- A type word with blanks after it, and the text after them. -/
def typeWord? (s : Text) : Option (Text × Text) := do
  let (word, r) ← takeWord? s
  let r ← skipBlanks? r
  if typeWords.contains word then some (word, r) else none

/-- The text after the bounds of a vector and blanks, if it starts with bounds. -/
def skipBounds (s : Text) : Text :=
  match s with
  | '[' :: r =>
    match r.dropWhile (· != ']') with
    | _ :: after => after.dropWhile isBlank
    | [] => s
  | _ => s

/-- The text after an equals sign, before which blanks may stand. -/
def equals? (s : Text) : Option Text := stripStart? "=" (s.dropWhile isBlank)

def named? (s : Text) : Option (Text × Text) := do
  let (name, r) ← takeWord? s
  let r ← equals? r
  return (name, r)

/-- The name after some type words, and the text after its equals sign. The last type word is the
name when no other follows. -/
def declaredName? : (fuel : Nat) → Text → Option (Text × Text)
  | 0, _ => none
  | fuel + 1, s =>
    match typeWord? s with
    | some (word, r) =>
      (declaredName? fuel r).or ((equals? r).map fun r => (word, r))
    | none => named? (skipBounds s)

/-- The characters at which a value ends. -/
def endsValue (c : Char) : Bool := c == ',' || c == ';' || c == '\n'

/-- The value after an equals sign, and the text after it. Where no value stands, the last blank
that is no line break is taken for it. -/
def value? (s : Text) : Option (Text × Text) :=
  let blanks := s.takeWhile isBlank
  let r := s.dropWhile isBlank
  match r.takeWhile fun c => !endsValue c with
  | [] =>
    match blanks.reverse.dropWhile (· == '\n') with
    | [] => none
    | b :: _ => some ([b], (blanks.reverse.takeWhile (· == '\n')).reverse ++ r)
  | value => some (value, r.dropWhile fun c => !endsValue c)

/-- A declaration: the name and the value as they are written, and the text after them. -/
def declaration? (prev : Option Char) (s : Text) : Option ((Text × Text) × Text) :=
  if prev.any isWordChar then none
  else do
    let r ← stripStart? "parameter" s
    let r ← skipBlanks? r
    let (name, r) ← declaredName? s.length r
    let (value, r) ← value? r
    return ((name, value), r)

/-- A value up to the first bracket that closes none of its own. -/
def balanced : (depth : Nat) → Text → Text
  | _, [] => []
  | depth, c :: s =>
    if c = '(' ∨ c = '\x7b' then c :: balanced (depth + 1) s
    else if c = ')' ∨ c = '\x7d' then
      match depth with
      | 0 => []
      | depth + 1 => c :: balanced depth s
    else c :: balanced depth s

/-- The parameters that a source declares, without their types. -/
def parameters (source : Text) : List ModuleParameter :=
  (findAll declaration? (removeComments source)).map fun (name, value) =>
    ⟨name, trim (balanced 0 value)⟩

end Verilog

end Gateware
