import Gateware.Markup.Attribute

/-!
# Tokens of markup

A document is cut into tags, pieces of text, literal data, and what is passed over: comments,
instructions and declarations. `Token.next?` reads the token at the start of a text;
`Token.length_of_next?` says that it takes at least one character.
-/

namespace Gateware.Markup

open Text

inductive Token where
  | start (inside : Text)
  | single (inside : Text)
  | close (inside : Text)
  | text (piece : Text)
  | data (piece : Text)
  | ignored
  deriving DecidableEq

namespace Token

/-- A quote stays open up to the same character. -/
def opensQuote? (c : Char) : Option Char := if c = '"' ∨ c = '\'' then some c else none

/-- The inside of a tag and the text after its `>`, which must stand outside quotes. -/
def tagEnd? : (quote : Option Char) → Text → Option (Text × Text)
  | _, [] => none
  | none, c :: s =>
    if c = '>' then some ([], s)
    else (tagEnd? (opensQuote? c) s).map fun (t, r) => (c :: t, r)
  | some q, c :: s => (tagEnd? (if c = q then none else some q) s).map fun (t, r) => (c :: t, r)

theorem length_of_tagEnd? {quote : Option Char} {s inside rest : Text}
    (h : tagEnd? quote s = some (inside, rest)) : rest.length < s.length := by
  fun_induction tagEnd? quote s generalizing inside with
  | case1 => simp at h
  | case2 s =>
    obtain ⟨-, rfl⟩ := by simpa using h
    simp
  | case3 c s hc ih =>
    obtain ⟨⟨t, r⟩, hr, e⟩ := Option.map_eq_some_iff.1 h
    obtain ⟨rfl, rfl⟩ := by simpa using e
    exact Nat.lt_succ_of_lt (ih hr)
  | case4 q c s ih =>
    obtain ⟨⟨t, r⟩, hr, e⟩ := Option.map_eq_some_iff.1 h
    obtain ⟨rfl, rfl⟩ := by simpa using e
    exact Nat.lt_succ_of_lt (ih hr)

/-- The declaration of a document type and the text after it: angle brackets inside it balance. -/
def doctypeEnd? : (depth : Nat) → Text → Option (Text × Text)
  | _, [] => none
  | depth, c :: s =>
    if c = '>' then
      match depth with
      | 0 => some ([], s)
      | depth + 1 => (doctypeEnd? depth s).map fun (t, r) => (c :: t, r)
    else
      (doctypeEnd? (if c = '<' then depth + 1 else depth) s).map fun (t, r) => (c :: t, r)

theorem length_of_doctypeEnd? {depth : Nat} {s inside rest : Text}
    (h : doctypeEnd? depth s = some (inside, rest)) : rest.length < s.length := by
  fun_induction doctypeEnd? depth s generalizing inside with
  | case1 => simp at h
  | case2 s =>
    obtain ⟨-, rfl⟩ := by simpa using h
    simp
  | case3 s depth ih =>
    obtain ⟨⟨t, r⟩, hr, e⟩ := Option.map_eq_some_iff.1 h
    obtain ⟨rfl, rfl⟩ := by simpa using e
    exact Nat.lt_succ_of_lt (ih hr)
  | case4 depth c s hc ih =>
    obtain ⟨⟨t, r⟩, hr, e⟩ := Option.map_eq_some_iff.1 h
    obtain ⟨rfl, rfl⟩ := by simpa using e
    exact Nat.lt_succ_of_lt (ih hr)

theorem length_of_cut? {p s before rest : Text} (h : cut? p s = some (before, rest)) :
    rest.length ≤ s.length := by
  have := congrArg List.length (cut?_eq_some h)
  simp only [List.length_append] at this
  omega

def bang (s : Text) : Except Error (Token × Text) :=
  match s with
  | '[' :: r =>
    match cut? "]]>" r with
    | none => .error .unclosedCData
    | some (inside, rest) =>
      match stripStart? "CDATA[" inside with
      | some piece => .ok (.data piece, rest)
      | none => .error .unclosedCData
  | '-' :: r =>
    match r with
    | '-' :: r =>
      match cut? "-->" r with
      | some (_, rest) => .ok (.ignored, rest)
      | none => .error .unclosedComment
    | _ => .error .unclosedComment
  | c :: r =>
    if c = 'D' ∨ c = 'd' then
      match doctypeEnd? 0 r with
      | none => .error .unclosedDoctype
      | some (inside, rest) =>
        if inside.take 6 |>.map Char.toUpper |> (· == "OCTYPE".toList) then
          if (inside.drop 6).all isSpace then .error .missingDoctypeName
          else .ok (.ignored, rest)
        else .error .unclosedDoctype
    else .error .unknownBang
  | [] => .error .unknownBang

theorem length_of_bang {s rest : Text} {t : Token} (h : bang s = .ok (t, rest)) :
    rest.length < s.length := by
  unfold bang at h
  split at h
  · split at h
    · simp at h
    · rename_i e
      have := length_of_cut? e
      split at h
      · obtain ⟨-, rfl⟩ := by simpa using h
        simpa using Nat.lt_succ_of_le this
      · simp at h
  · split at h
    · split at h
      · rename_i e
        have := length_of_cut? e
        obtain ⟨-, rfl⟩ := by simpa using h
        simp
        omega
      · simp at h
    · simp at h
  · split at h
    · split at h
      · simp at h
      · rename_i e
        have := length_of_doctypeEnd? e
        split at h
        · split at h
          · simp at h
          · obtain ⟨-, rfl⟩ := by simpa using h
            simpa using Nat.lt_succ_of_lt this
        · simp at h
    · simp at h
  · simp at h

def markup (s : Text) : Except Error (Token × Text) :=
  match s with
  | '!' :: r => bang r
  | '?' :: _ =>
    match cut? "?>" s with
    | none => .error .unclosedInstruction
    | some ([], _) => .error .unclosedInstruction
    | some (_ :: _, rest) => .ok (.ignored, rest)
  | '/' :: r =>
    match tagEnd? none r with
    | none => .error .unclosedTag
    | some (inside, rest) => .ok (.close inside, rest)
  | s =>
    match tagEnd? none s with
    | none => .error .unclosedTag
    | some (inside, rest) =>
      match stripEnd? "/" inside with
      | some inside => .ok (.single inside, rest)
      | none => .ok (.start inside, rest)

theorem length_of_markup {s rest : Text} {t : Token} (h : markup s = .ok (t, rest)) :
    rest.length ≤ s.length := by
  unfold markup at h
  split at h
  · exact Nat.le_succ_of_le (Nat.le_of_lt (length_of_bang h))
  · split at h
    · simp at h
    · simp at h
    · rename_i e
      obtain ⟨-, rfl⟩ := by simpa using h
      exact length_of_cut? e
  · split at h
    · simp at h
    · rename_i e
      obtain ⟨-, rfl⟩ := by simpa using h
      exact Nat.le_succ_of_le (Nat.le_of_lt (length_of_tagEnd? e))
  · split at h
    · simp at h
    · rename_i e
      have := Nat.le_of_lt (length_of_tagEnd? e)
      split at h <;>
      · obtain ⟨-, rfl⟩ := by simpa using h
        exact this

/-- The token at the start of the text, and the text after it. -/
def next? (s : Text) : Except Error (Option (Token × Text)) :=
  match s with
  | [] => .ok none
  | '<' :: r => (markup r).map some
  | c :: r =>
    .ok (some (.text (trimBy isSpace (c :: r.takeWhile (· != '<'))), r.dropWhile (· != '<')))

theorem length_of_next? {s rest : Text} {t : Token} (h : next? s = .ok (some (t, rest))) :
    rest.length < s.length := by
  unfold next? at h
  split at h
  · simp at h
  · rename_i r
    match hm : markup r with
    | .error e => simp [hm, Except.map] at h
    | .ok p =>
      obtain rfl : p = (t, rest) := by simpa [hm, Except.map] using h
      exact Nat.lt_succ_of_le (length_of_markup hm)
  · obtain ⟨-, rfl⟩ := by simpa using h
    exact Nat.lt_succ_of_le length_dropWhile_le

end Token

end Gateware.Markup
