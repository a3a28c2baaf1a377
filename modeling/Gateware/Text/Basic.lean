/-!
# Text

Text is a list of characters. `stripStart?_eq_some_iff` and `stripEnd?_eq_some_iff` say what
removing a literal from either end means, `flatten_pieces` that cutting at separators loses
nothing else, and `cut?_eq_some` that a literal is found where it stands.
-/

namespace Gateware

abbrev Text := List Char

/-- A string literal stands for its characters. -/
instance : Coe String Text := ⟨String.toList⟩

namespace Text

/-! ### Literals at either end -/

/-- What follows the literal `p` at the start of the text. -/
def stripStart? : Text → Text → Option Text
  | [], s => some s
  | _ :: _, [] => none
  | a :: p, b :: s => if a = b then stripStart? p s else none

theorem stripStart?_eq_some_iff {p s r : Text} : stripStart? p s = some r ↔ s = p ++ r := by
  fun_induction stripStart? p s with
  | case1 s => simp
  | case2 => simp
  | case3 p b s ih => simp [ih]
  | case4 a p b s h => simp [Ne.symm h]

def startsWith (p s : Text) : Bool := (stripStart? p s).isSome

theorem startsWith_iff {p s : Text} : startsWith p s = true ↔ ∃ r, s = p ++ r := by
  simp [startsWith, Option.isSome_iff_exists, stripStart?_eq_some_iff]

/-- What stands before the literal `p` at the end of the text. -/
def stripEnd? (p s : Text) : Option Text :=
  (stripStart? p.reverse s.reverse).map List.reverse

theorem stripEnd?_eq_some_iff {p s r : Text} : stripEnd? p s = some r ↔ s = r ++ p := by
  simp only [stripEnd?, Option.map_eq_some_iff, stripStart?_eq_some_iff]
  constructor
  · rintro ⟨t, h, rfl⟩
    simpa using congrArg List.reverse h
  · rintro rfl
    exact ⟨r.reverse, by simp, by simp⟩

def endsWith (p s : Text) : Bool := (stripEnd? p s).isSome

theorem endsWith_iff {p s : Text} : endsWith p s = true ↔ ∃ r, s = r ++ p := by
  simp [endsWith, Option.isSome_iff_exists, stripEnd?_eq_some_iff]

@[simp] theorem endsWith_append (r p : Text) : endsWith p (r ++ p) = true := endsWith_iff.2 ⟨r, rfl⟩

/-! ### Cutting at separators -/

/-- The pieces between the characters that satisfy `sep`; there is always at least one. -/
def pieces (sep : Char → Bool) : Text → List Text
  | [] => [[]]
  | c :: s =>
    if sep c then [] :: pieces sep s
    else match pieces sep s with
      | [] => [[c]]
      | w :: ws => (c :: w) :: ws

theorem pieces_ne_nil (sep : Char → Bool) (s : Text) : pieces sep s ≠ [] := by
  fun_cases pieces sep s <;> simp [*]

/-- The pieces hold every character that is no separator, in order. -/
theorem flatten_pieces (sep : Char → Bool) (s : Text) :
    (pieces sep s).flatten = s.filter (fun c => !sep c) := by
  fun_induction pieces sep s with
  | case1 => rfl
  | case2 c s h ih => simp [h, ih]
  | case3 c s h e => exact absurd e (pieces_ne_nil sep s)
  | case4 c s h w ws e ih => simpa [h, e] using ih

def wordsBy (sep : Char → Bool) (s : Text) : List Text :=
  (pieces sep s).filter (fun w => !w.isEmpty)

def joinWith (sep : Text) : List Text → Text
  | [] => []
  | [w] => w
  | w :: ws => w ++ sep ++ joinWith sep ws

/-- The text without what satisfies `p` at its start and end. -/
def trimBy (p : Char → Bool) (s : Text) : Text :=
  ((s.dropWhile p).reverse.dropWhile p).reverse

def trimEndBy (p : Char → Bool) (s : Text) : Text :=
  (s.reverse.dropWhile p).reverse

/-- Lines end at a line feed; a last one without an end counts when it holds anything. -/
def lines (s : Text) : List Text :=
  match (pieces (· == '\n') s).reverse with
  | [] :: rest => rest.reverse
  | all => all.reverse

def unlines (ls : List Text) : Text := ls.flatMap (· ++ ['\n'])

/-- The number of bytes of the text in UTF-8. -/
def byteSize (s : Text) : Nat := s.foldr (fun c n => c.utf8Size + n) 0

/-! ### Finding a literal -/

/-- The text before and after the first place where `p` stands. -/
def cut? (p : Text) : Text → Option (Text × Text)
  | [] => if p.isEmpty then some ([], []) else none
  | c :: s =>
    match stripStart? p (c :: s) with
    | some r => some ([], r)
    | none => (cut? p s).map fun (b, r) => (c :: b, r)

theorem cut?_eq_some {p s b r : Text} (h : cut? p s = some (b, r)) : s = b ++ p ++ r := by
  fun_induction cut? p s generalizing b with
  | case1 => simp_all
  | case2 => simp at h
  | case3 c s t e =>
    obtain ⟨rfl, rfl⟩ := by simpa using h
    simpa using stripStart?_eq_some_iff.1 e
  | case4 c s e ih =>
    obtain ⟨⟨b', r'⟩, h', he⟩ := Option.map_eq_some_iff.1 h
    obtain ⟨rfl, rfl⟩ := by simpa using he
    simp [ih h']

def includes (p s : Text) : Bool := (cut? p s).isSome

/-- The text before the last place where `c` stands, and the text after it. -/
def cutLast? (c : Char) (s : Text) : Option (Text × Text) :=
  (cut? [c] s.reverse).map fun (b, r) => (r.reverse, b.reverse)

/-! ### Matches -/

/-- The text cut into its leftmost non-overlapping matches and the characters between them.
The matcher sees the character before its place and the text from there on; it answers a value
and the text after its match. `skip` characters belong to the match before. -/
def scan {α : Type} (m : Option Char → Text → Option (α × Text)) (prev : Option Char) :
    (skip : Nat) → Text → List (Char ⊕ α)
  | _, [] => []
  | skip + 1, c :: s => scan m (some c) skip s
  | 0, c :: s =>
    match m prev (c :: s) with
    | some (a, rest) => .inr a :: scan m (some c) (s.length - rest.length) s
    | none => .inl c :: scan m (some c) 0 s

def findAll {α : Type} (m : Option Char → Text → Option (α × Text)) (s : Text) : List α :=
  (scan m none 0 s).filterMap fun
    | .inl _ => none
    | .inr a => some a

/-- The text with each match replaced by the text it answers. -/
def substitute (m : Option Char → Text → Option (Text × Text)) (s : Text) : Text :=
  (scan m none 0 s).flatMap fun
    | .inl c => [c]
    | .inr t => t

/-- Every place of the literal `old` replaced by `new`, from the left. -/
def replace (old new : Text) (s : Text) : Text :=
  substitute (fun _ t => (stripStart? old t).map fun r => (new, r)) s

end Text

end Gateware
