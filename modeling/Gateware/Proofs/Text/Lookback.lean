import Gateware.Proofs.Text.Pieces

/-!
# Matches of a matcher that looks back

A matcher may look at the character before the place where it is to match. What it finds behind a
text then depends on that text by its last character only: a text with a match at its start is left
for what follows the match (`findFrom_match`), and one without any is passed over
(`findFrom_quiet`). `mem_wordsBy_of_edge` finds the words of a text at the places where one begins.
-/

namespace Gateware.Text

variable {α : Type} {m : Option Char → Text → Option (α × Text)} {prev : Option Char}

/-- What is found in a text that follows `prev`. -/
def findFrom (m : Option Char → Text → Option (α × Text)) (prev : Option Char)
    (s : Text) : List α :=
  (scan m prev 0 s).filterMap fun
    | .inl _ => none
    | .inr a => some a

theorem findAll_eq_findFrom (s : Text) : findAll m s = findFrom m none s := rfl

theorem last_cons (c : Char) (s : Text) :
    (c :: s).getLast?.or prev = s.getLast?.or (some c) := by
  rw [List.getLast?_cons]
  cases s.getLast? <;> rfl

theorem last_append (a b : Text) :
    (a ++ b).getLast?.or prev = b.getLast?.or (a.getLast?.or prev) := by
  rw [List.getLast?_append, Option.or_assoc]

theorem scan_taken (m : Option Char → Text → Option (α × Text)) (prev : Option Char)
    (taken rest : Text) :
    scan m prev taken.length (taken ++ rest) = scan m (taken.getLast?.or prev) 0 rest := by
  induction taken generalizing prev with
  | nil => rfl
  | cons c taken ih => rw [List.length_cons, List.cons_append, scan, ih, last_cons]

theorem findFrom_match {taken rest : Text} {a : α} (nonempty : taken ≠ [])
    (found : m prev (taken ++ rest) = some (a, rest)) :
    findFrom m prev (taken ++ rest) = a :: findFrom m (taken.getLast?.or prev) rest := by
  obtain ⟨c, taken, rfl⟩ := List.exists_cons_of_ne_nil nonempty
  rw [List.cons_append] at found ⊢
  unfold findFrom
  have skipped : (taken ++ rest).length - rest.length = taken.length := by simp
  rw [scan, found]
  simp only [skipped]
  rw [scan_taken, last_cons]
  rfl

theorem findFrom_miss {c : Char} {s : Text} (miss : m prev (c :: s) = none) :
    findFrom m prev (c :: s) = findFrom m (some c) s := by
  unfold findFrom
  rw [scan, miss]
  rfl

/-- The character before a text matters to the first match only. -/
theorem findFrom_congr {p q : Option Char} {s : Text} (same : m p s = m q s) :
    findFrom m p s = findFrom m q s := by
  unfold findFrom
  cases s with
  | nil => rfl
  | cons c s => rw [scan, scan, same]

/-- A text without a match is passed over. -/
theorem findFrom_quiet {t s : Text}
    (quiet : ∀ a u, t = a ++ u → u ≠ [] → m (a.getLast?.or prev) (u ++ s) = none) :
    findFrom m prev (t ++ s) = findFrom m (t.getLast?.or prev) s := by
  induction t generalizing prev with
  | nil => rfl
  | cons c t ih =>
    have here : m prev (c :: (t ++ s)) = none := quiet [] (c :: t) rfl (List.cons_ne_nil c t)
    rw [List.cons_append, findFrom_miss here, last_cons]
    refine ih fun a u split nonempty => ?_
    rw [← last_cons]
    exact quiet (c :: a) u (by rw [split]; rfl) nonempty

/-- Where nothing is found, nothing is found further on. -/
theorem findFrom_append_eq_nil {t s : Text} (none : findFrom m prev (t ++ s) = []) :
    findFrom m (t.getLast?.or prev) s = [] := by
  induction t generalizing prev with
  | nil => exact none
  | cons c t ih =>
    rw [List.cons_append] at none
    cases here : m prev (c :: (t ++ s)) with
    | some e =>
      unfold findFrom at none
      rw [scan, here] at none
      simp at none
    | none =>
      rw [findFrom_miss here] at none
      rw [last_cons]
      exact ih none

/-! ### Words -/

variable {sep : Char → Bool}

theorem wordsBy_append_sep {c : Char} (h : sep c = true) (s r : Text) :
    wordsBy sep (s ++ c :: r) = wordsBy sep s ++ wordsBy sep r := by
  unfold wordsBy
  rw [pieces_append_sep h, List.filter_append]

theorem exists_pieces (sep : Char → Bool) (s : Text) :
    ∃ ws, pieces sep s = s.takeWhile (fun c => !sep c) :: ws := by
  induction s with
  | nil => exact ⟨[], rfl⟩
  | cons c s ih =>
    obtain ⟨ws, shape⟩ := ih
    cases h : sep c with
    | true => exact ⟨pieces sep s, by simp [pieces, h]⟩
    | false => exact ⟨ws, by simp [pieces, h, shape]⟩

/-- A word that begins where the text before ends or has a separator is one of the words. -/
theorem mem_wordsBy_of_edge {a u : Text} (edge : ∀ c ∈ a.getLast?, sep c = true)
    (nonempty : u.takeWhile (fun c => !sep c) ≠ []) :
    u.takeWhile (fun c => !sep c) ∈ wordsBy sep (a ++ u) := by
  have first : u.takeWhile (fun c => !sep c) ∈ wordsBy sep u := by
    obtain ⟨ws, shape⟩ := exists_pieces sep u
    unfold wordsBy
    rw [shape]
    exact List.mem_filter.mpr ⟨List.mem_cons_self, by simpa using nonempty⟩
  rcases List.eq_nil_or_concat a with rfl | ⟨a, c, rfl⟩
  · exact first
  · rw [List.concat_eq_append] at edge ⊢
    rw [List.append_assoc, List.singleton_append, wordsBy_append_sep (edge c (by simp))]
    exact List.mem_append_right _ first

end Gateware.Text
