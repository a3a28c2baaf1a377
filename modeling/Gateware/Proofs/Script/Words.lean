import Gateware.Proofs.Text.Pieces
import Gateware.Script.Words

/-!
# Words and the lines that they make

A word of a line holds nothing that separates words where it stands, and all but the last word of a
line leave nothing open (`InLine`). Such words are read back from the line in which they are joined,
so splitting a line and joining its words again settles after one round (`splitWords_exact`).
-/

namespace Gateware.Script

open Text

namespace Nesting

variable {n : Nesting} {c : Char} {s w : Text}

/-! ### Reading on from a nesting -/

/-- The nesting behind a text that is read from a given one. -/
def after (n : Nesting) (s : Text) : Nesting := s.foldl step n

/-- Nothing separates words in a text that is read from a given nesting. -/
def Whole (n : Nesting) (w : Text) : Prop :=
  ∀ p c s, w = p ++ c :: s → (n.after p).separates c = false

/-- The text without what separates words in it. -/
def unseparated (n : Nesting) : Text → Text
  | [] => []
  | c :: s => if n.separates c then unseparated (n.step c) s else c :: unseparated (n.step c) s

theorem whole_nil : n.Whole [] := fun _ _ _ split => by simp at split

theorem whole_cons : n.Whole (c :: w) ↔ n.separates c = false ∧ (n.step c).Whole w := by
  constructor
  · intro whole
    exact ⟨whole [] c w rfl, fun p d s split => whole (c :: p) d s (congrArg (c :: ·) split)⟩
  · rintro ⟨first, rest⟩ p d s split
    cases p with
    | nil =>
      obtain ⟨rfl, -⟩ := List.cons.inj split
      exact first
    | cons b p =>
      obtain ⟨rfl, later⟩ := List.cons.inj split
      exact rest p d s later

instance decidableWhole (n : Nesting) : (w : Text) → Decidable (n.Whole w)
  | [] => isTrue whole_nil
  | c :: w =>
    have := decidableWhole (n.step c) w
    decidable_of_iff (n.separates c = false ∧ (n.step c).Whole w) whole_cons.symm

/-- White space opens and closes nothing. -/
theorem step_of_isBlank (h : isBlank c = true) : n.step c = n := by
  have ne {d : Char} (hd : isBlank d = false) : (c == d) = false := by
    rw [beq_eq_false_iff_ne]
    rintro rfl
    rw [h] at hd
    cases hd
  unfold step
  rw [ne (d := '"') (by decide), ne (d := '{') (by decide), ne (d := '[') (by decide),
    ne (d := '}') (by decide), ne (d := ']') (by decide)]
  cases n.quoted <;> rfl

theorem separates_iff : n.separates c = true ↔ n = {} ∧ isBlank c = true := by
  obtain ⟨depth, quoted⟩ := n
  simp [separates, and_assoc]

end Nesting

/-! ### Pieces -/

variable {n : Nesting} {c : Char} {s w line : Text} {ws : List Text}

theorem piecesFrom_ne_nil (n : Nesting) (s : Text) : piecesFrom n s ≠ [] := by
  fun_cases piecesFrom n s with
  | case1 => exact List.cons_ne_nil _ _
  | case2 => exact List.cons_ne_nil _ _
  | case3 => exact List.cons_ne_nil _ _
  | case4 => exact List.cons_ne_nil _ _

theorem piecesFrom_separated (h : n.separates c = true) (s : Text) :
    piecesFrom n (c :: s) = [] :: piecesFrom n s := by
  rw [piecesFrom, if_pos h]

theorem piecesFrom_append (whole : n.Whole w) (s : Text) :
    ∃ p ps, piecesFrom (n.after w) s = p :: ps ∧ piecesFrom n (w ++ s) = (w ++ p) :: ps := by
  induction w generalizing n with
  | nil =>
    obtain ⟨p, ps, shape⟩ := List.exists_cons_of_ne_nil (piecesFrom_ne_nil n s)
    exact ⟨p, ps, shape, shape⟩
  | cons c w ih =>
    obtain ⟨inside, rest⟩ := Nesting.whole_cons.mp whole
    obtain ⟨p, ps, behind, shape⟩ := ih rest
    refine ⟨p, ps, behind, ?_⟩
    rw [List.cons_append, piecesFrom, inside, shape]
    rfl

theorem flatten_piecesFrom (n : Nesting) (s : Text) :
    (piecesFrom n s).flatten = n.unseparated s := by
  fun_induction piecesFrom n s with
  | case1 => rfl
  | case2 n c s separated ih =>
    have same := n.step_of_isBlank (Nesting.separates_iff.mp separated).2
    rw [List.flatten_cons, List.nil_append, ih, Nesting.unseparated, if_pos separated, same]
  | case3 n c s inside none => exact absurd none (piecesFrom_ne_nil (n.step c) s)
  | case4 n c s inside p ps shape ih =>
    rw [shape] at ih
    rw [Nesting.unseparated, if_neg inside, ← ih]
    rfl

/-! ### Words in a line -/

/-- What stands alone in every line: the word leaves nothing open. -/
structure Word (w : Text) : Prop where
  nonempty : w ≠ []
  whole : Nesting.Whole {} w
  closed : Nesting.after {} w = {}

instance (w : Text) : Decidable (Word w) :=
  decidable_of_iff (w ≠ [] ∧ Nesting.Whole {} w ∧ Nesting.after {} w = {})
    ⟨fun ⟨h, h', h''⟩ => ⟨h, h', h''⟩, fun ⟨h, h', h''⟩ => ⟨h, h', h''⟩⟩

/-- Words as they stand in a line, where the last one may leave something open. -/
inductive InLine : List Text → Prop
  | nil : InLine []
  | last {w : Text} : w ≠ [] → Nesting.Whole {} w → InLine [w]
  | cons {w : Text} {ws : List Text} : Word w → InLine ws → InLine (w :: ws)

theorem splitWords_whole (nonempty : w ≠ []) (whole : Nesting.Whole {} w) :
    splitWords w = [w] := by
  obtain ⟨p, ps, behind, shape⟩ := piecesFrom_append whole []
  obtain ⟨rfl, rfl⟩ := List.cons.inj behind
  rw [List.append_nil] at shape
  unfold splitWords
  rw [shape]
  simp [nonempty]

theorem splitWords_append (word : Word w) (blank : isBlank c = true) (s : Text) :
    splitWords (w ++ c :: s) = w :: splitWords s := by
  obtain ⟨p, ps, behind, shape⟩ := piecesFrom_append word.whole (c :: s)
  have separated : Nesting.separates {} c = true := blank
  rw [word.closed, piecesFrom_separated separated] at behind
  obtain ⟨rfl, rfl⟩ := List.cons.inj behind
  unfold splitWords
  rw [shape]
  simp [word.nonempty]

theorem splitWords_joinWith (h : InLine ws) : splitWords (joinWith " " ws) = ws := by
  induction h with
  | nil => rfl
  | last nonempty whole => exact splitWords_whole nonempty whole
  | @cons w ws word rest ih =>
    cases ws with
    | nil => exact splitWords_whole word.nonempty word.whole
    | cons v ws =>
      rw [joinWith_cons_cons, splitWords_append word (by decide), ih]

theorem InLine.filter_cons {p : Text} {ps : List Text} (whole : Nesting.Whole {} p)
    (closed : ps ≠ [] → Nesting.after {} p = {}) (rest : InLine (ps.filter fun w => !w.isEmpty)) :
    InLine ((p :: ps).filter fun w => !w.isEmpty) := by
  by_cases empty : p = []
  · rwa [empty]
  have kept : (p :: ps).filter (fun w => !w.isEmpty) = p :: ps.filter fun w => !w.isEmpty :=
    List.filter_cons_of_pos (by simpa using empty)
  rw [kept]
  by_cases only : ps = []
  · rw [only]
    exact .last empty whole
  · exact .cons ⟨empty, whole, closed only⟩ rest

/-- The first piece of a text goes on from the nesting that the text is read from, and leaves nothing
open when others follow. -/
theorem inLine_piecesFrom (n : Nesting) (s : Text) :
    ∃ p ps, piecesFrom n s = p :: ps ∧ n.Whole p ∧ (ps ≠ [] → n.after p = {}) ∧
      InLine (ps.filter fun w => !w.isEmpty) := by
  fun_induction piecesFrom n s with
  | case1 n => exact ⟨_, _, rfl, Nesting.whole_nil, nofun, .nil⟩
  | case2 n c s separated ih =>
    obtain ⟨rfl, -⟩ := Nesting.separates_iff.mp separated
    obtain ⟨p, ps, shape, whole, closed, rest⟩ := ih
    exact ⟨_, _, rfl, Nesting.whole_nil, fun _ => rfl, shape ▸ .filter_cons whole closed rest⟩
  | case3 n c s inside none => exact absurd none (piecesFrom_ne_nil (n.step c) s)
  | case4 n c s inside p ps shape ih =>
    obtain ⟨p', ps', shape', whole, closed, rest⟩ := ih
    obtain ⟨rfl, rfl⟩ := List.cons.inj (shape.symm.trans shape')
    exact ⟨_, _, rfl, Nesting.whole_cons.mpr ⟨by simpa using inside, whole⟩, closed, rest⟩

theorem inLine_splitWords (line : Text) : InLine (splitWords line) := by
  obtain ⟨p, ps, shape, whole, closed, rest⟩ := inLine_piecesFrom {} line
  unfold splitWords
  rw [shape]
  exact .filter_cons whole closed rest

theorem flatten_splitWords (line : Text) :
    (splitWords line).flatten = Nesting.unseparated {} line := by
  unfold splitWords
  rw [List.flatten_filter_not_isEmpty, flatten_piecesFrom]

/-- Words are read back from the line in which they are joined; the words of any line make that line
again, up to the white space between them, and settle after one round. -/
theorem splitWords_exact :
    (∀ ws : List Text, (∀ w ∈ ws, Word w) → splitWords (joinWith " " ws) = ws) ∧
    ∀ line : Text, splitWords (joinWith " " (splitWords line)) = splitWords line ∧
      (∀ w ∈ splitWords line, w ≠ []) ∧
      (splitWords line).flatten = Nesting.unseparated {} line := by
  refine ⟨fun ws words => splitWords_joinWith ?_, fun line => ⟨?_, ?_, flatten_splitWords line⟩⟩
  · induction ws with
    | nil => exact .nil
    | cons w ws ih =>
      exact .cons (words w List.mem_cons_self) (ih fun v hv => words v (List.mem_cons_of_mem w hv))
  · exact splitWords_joinWith (inLine_splitWords line)
  · exact fun w => mem_split_ne_nil

/-- A quote in brackets and a bracket in quotes stand for themselves, and so does a bracket that
closes nothing. -/
theorem splitWords_exact_quotedBrackets :
    let ws : List Text := ["files", "[list \"a b \x7bc d\x7d]", "\"x [ y\"z", "]\x7d"]
    (∀ w ∈ ws, Word w) ∧ splitWords "files [list \"a b \x7bc d\x7d] \"x [ y\"z ]\x7d" = ws := by
  have words : ∀ w ∈ ["files", "[list \"a b \x7bc d\x7d]", "\"x [ y\"z", "]\x7d"].map String.toList,
      Word w := by decide
  exact ⟨words, splitWords_exact.1 _ words⟩

end Gateware.Script
