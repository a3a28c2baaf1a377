import Gateware.Markup.Error

/-!
# Entities

In texts and attribute values some characters are written as references. `unescape` replaces each
reference by what it stands for, once.
-/

namespace Gateware.Markup

open Text

def namedEntity? (name : Text) : Option Char :=
  if name = "lt" then some '<'
  else if name = "gt" then some '>'
  else if name = "amp" then some '&'
  else if name = "apos" then some '\''
  else if name = "quot" then some '"'
  else none

/-- Codes fit in 32 bits. -/
def codeBound : Nat := Nat.pow 2 32

/-- The number that the digits continue, below the bound of codes. -/
def codeValue (base : Nat) : (acc : Nat) → Text → Except CodeError Nat
  | acc, [] => .ok acc
  | acc, c :: s =>
    match digitValue? base c with
    | none => .error .badDigit
    | some d =>
      if acc * base + d < codeBound then codeValue base (acc * base + d) s else .error .tooLarge

def codeOfDigits (base : Nat) (s : Text) : Except CodeError Nat :=
  match s with
  | [] => .error .empty
  | '+' :: _ => .error .signed
  | '-' :: _ => .error .signed
  | s => codeValue base 0 s

/-- The character of a numeric reference: decimal digits, or `x` and hexadecimal ones. -/
def charOfCode (s : Text) : Except CodeError Char :=
  let code := match s with
    | 'x' :: digits => codeOfDigits 16 digits
    | digits => codeOfDigits 10 digits
  code.bind fun n =>
    if n = 0 then .error .null
    else if h : n.isValidChar then .ok (Char.ofNatAux n h)
    else .error (.noCharacter n)

/-- The name of the reference whose ampersand stands before, and the text after its semicolon. -/
def reference? (s : Text) : Option (Text × Text) :=
  let plain (c : Char) : Bool := c != '&' && c != ';'
  match s.dropWhile plain with
  | ';' :: rest => some (s.takeWhile plain, rest)
  | _ => none

theorem length_of_reference? {s name rest : Text} (h : reference? s = some (name, rest)) :
    rest.length < s.length := by
  have drop := (List.dropWhile_suffix (l := s) fun c => c != '&' && c != ';').length_le
  simp only [reference?] at h
  split at h
  · rename_i r e
    obtain ⟨-, rfl⟩ := by simpa using h
    simpa [e, Nat.succ_le_iff] using drop
  · simp at h

/-- What a reference stands for. `first` and `last` are the places of its name. -/
def referenceChar (first last : Nat) (name : Text) : Except Error Char :=
  match name with
  | '#' :: code =>
    match charOfCode code with
    | .ok c => .ok c
    | .error cause => .error (.badCode cause)
  | name =>
    match namedEntity? name with
    | some c => .ok c
    | none => .error (.unknownEntity first last name)

/-- The text with its references replaced, as the end of a piece of `size` bytes. -/
def unescapeEnd (size : Nat) (s : Text) : Except Error Text :=
  match s with
  | [] => .ok []
  | c :: s =>
    if c = '&' then
      match h : reference? s with
      | none => .error (.unterminatedEntity (size - byteSize s - 1) size)
      | some (name, rest) =>
        have := length_of_reference? h
        match referenceChar (size - byteSize s) (size - byteSize rest - 1) name with
        | .ok x => (unescapeEnd size rest).map (x :: ·)
        | .error e => .error e
    else (unescapeEnd size s).map (c :: ·)
termination_by s.length
decreasing_by all_goals simp <;> omega

def unescape (s : Text) : Except Error Text := unescapeEnd (byteSize s) s

end Gateware.Markup
