import Gateware.Markup.Escape

/-!
# Attributes

The attributes of a tag are names with quoted values, which need no blank between them.
`attributesEnd` reads them from what follows the tag's name.
-/

namespace Gateware.Markup

open Text

def isSpace (c : Char) : Bool := c == ' ' || c == '\t' || c == '\n' || c == '\r'

theorem length_dropWhile_le {p : Char → Bool} {s : Text} : (s.dropWhile p).length ≤ s.length :=
  (List.dropWhile_suffix p).length_le

/-- The name that starts with `c`, and the text after the equals sign that follows it; or else the
text from the place where that sign is missing. The first character belongs to the name whatever
it is. -/
def attributeName (c : Char) (s : Text) : Except Text (Text × Text) :=
  let inName (c : Char) : Bool := c != '=' && !isSpace c
  match (s.dropWhile inName).dropWhile isSpace with
  | '=' :: rest => .ok (c :: s.takeWhile inName, rest)
  | rest => .error rest

theorem length_of_attributeName {c : Char} {s name rest : Text}
    (h : attributeName c s = .ok (name, rest)) : rest.length < s.length := by
  simp only [attributeName] at h
  split at h
  · rename_i r e
    obtain ⟨-, rfl⟩ := by simpa using h
    have outer := length_dropWhile_le (p := isSpace)
      (s := s.dropWhile fun c => c != '=' && !isSpace c)
    rw [e, List.length_cons] at outer
    have inner := length_dropWhile_le (p := fun c => c != '=' && !isSpace c) (s := s)
    omega
  · simp at h

/-- The value between quotes, and the text after it. A tag of `size` bytes gives the positions. -/
def attributeValue (size : Nat) (s : Text) : Except Error (Text × Text) :=
  match s.dropWhile isSpace with
  | [] => .error (.expectedValue size)
  | q :: r =>
    if q = '"' ∨ q = '\'' then
      match r.dropWhile (· != q) with
      | [] => .error (.expectedQuote size q)
      | _ :: rest => .ok (r.takeWhile (· != q), rest)
    else .error (.unquotedValue (size - byteSize (q :: r)))

theorem length_of_attributeValue {size : Nat} {s value rest : Text}
    (h : attributeValue size s = .ok (value, rest)) : rest.length < s.length := by
  have outer := length_dropWhile_le (p := isSpace) (s := s)
  unfold attributeValue at h
  split at h
  · simp at h
  · rename_i q r e
    split at h
    · split at h
      · simp at h
      · rename_i rest' e'
        obtain ⟨-, rfl⟩ := by simpa using h
        have inner := length_dropWhile_le (p := (· != q)) (s := r)
        simp [e, e'] at outer inner
        omega
    · simp at h

/-- The attributes in the last part of a tag of `size` bytes; `seen` holds the names before them
with their positions. Each value is unescaped before the next name is looked at. -/
def attributesEnd (size : Nat) (seen : List (Text × Nat)) (s : Text) :
    Except Error (List (Text × Text)) :=
  match e : s.dropWhile isSpace with
  | [] => .ok []
  | c :: r =>
    let start := size - byteSize (c :: r)
    match hn : attributeName c r with
    | .error rest => .error (.expectedEq (size - byteSize rest))
    | .ok (name, afterName) =>
      match seen.find? (·.1 == name) with
      | some (_, previous) => .error (.duplicated start previous)
      | none =>
        match hv : attributeValue size afterName with
        | .error e => .error e
        | .ok (value, rest) =>
          match unescape value with
          | .error e => .error e
          | .ok value =>
            have : rest.length < s.length := by
              have blank := length_dropWhile_le (p := isSpace) (s := s)
              have name := length_of_attributeName hn
              have value := length_of_attributeValue hv
              simp [e] at blank
              omega
            (attributesEnd size ((name, start) :: seen) rest).map ((name, value) :: ·)
termination_by s.length

end Gateware.Markup
