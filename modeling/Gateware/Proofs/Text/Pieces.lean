import Gateware.Text.Basic

/-!
# Pieces between separators

A separator cuts a text into the pieces before it and those after it (`pieces_append_sep`), and no
piece holds one, so pieces are read back from where they are joined (`pieces_joinWith`). The lines of
a text hold everything but its line ends (`flatten_lines`).
-/

namespace Gateware.Text

variable {sep : Char → Bool} {s : Text}

theorem pieces_append_sep {c : Char} (h : sep c = true) (s r : Text) :
    pieces sep (s ++ c :: r) = pieces sep s ++ pieces sep r := by
  induction s with
  | nil => simp [pieces, h]
  | cons a s ih =>
    rw [List.cons_append, pieces, pieces, ih]
    split
    · rfl
    · obtain ⟨w, ws, shape⟩ := List.exists_cons_of_ne_nil (pieces_ne_nil sep s)
      rw [shape]
      rfl

theorem pieces_eq_singleton (h : ∀ c ∈ s, sep c = false) : pieces sep s = [s] := by
  induction s with
  | nil => rfl
  | cons c s ih =>
    have first := h c List.mem_cons_self
    have rest := ih fun a ha => h a (List.mem_cons_of_mem c ha)
    simp [pieces, first, rest]

theorem not_sep_of_mem_pieces {w : Text} (h : w ∈ pieces sep s) : ∀ c ∈ w, sep c = false := by
  induction s generalizing w with
  | nil => simp_all [pieces]
  | cons a s ih =>
    obtain ⟨v, vs, shape⟩ := List.exists_cons_of_ne_nil (pieces_ne_nil sep s)
    rw [pieces, shape] at h
    rw [shape] at ih
    split at h
    · rcases List.mem_cons.mp h with rfl | later
      · simp
      · exact ih later
    · rename_i kept
      rcases List.mem_cons.mp h with rfl | later
      · intro c hc
        rcases List.mem_cons.mp hc with rfl | inside
        · simpa using kept
        · exact ih List.mem_cons_self c inside
      · exact ih (List.mem_cons_of_mem v later)

/-- Only the empty text has nothing but one empty piece. -/
theorem eq_nil_of_pieces (h : pieces sep s = [[]]) : s = [] := by
  cases s with
  | nil => rfl
  | cons c s =>
    obtain ⟨w, ws, shape⟩ := List.exists_cons_of_ne_nil (pieces_ne_nil sep s)
    rw [pieces, shape] at h
    split at h <;> simp at h

/-- Texts without a separator are read back from where they are joined. -/
theorem pieces_joinWith {sep : Char → Bool} {c : Char} (h : sep c = true) {l : List Text}
    (nonempty : l ≠ []) (whole : ∀ w ∈ l, ∀ a ∈ w, sep a = false) :
    pieces sep (joinWith [c] l) = l := by
  induction l with
  | nil => exact absurd rfl nonempty
  | cons w l ih =>
    have first := pieces_eq_singleton (whole w List.mem_cons_self)
    cases l with
    | nil => exact first
    | cons v l =>
      have rest := ih (by simp) fun u hu => whole u (List.mem_cons_of_mem w hu)
      change pieces sep (w ++ [c] ++ joinWith [c] (v :: l)) = _
      rw [List.append_assoc, List.singleton_append, pieces_append_sep h, first, rest]
      rfl

theorem joinWith_cons_cons (w v : Text) (ws : List Text) :
    joinWith " " (w :: v :: ws) = w ++ ' ' :: joinWith " " (v :: ws) :=
  List.append_assoc w [' '] _

theorem flatten_lines (s : Text) :
    (lines s).flatten = s.filter fun c => !(c == '\n') := by
  rw [← flatten_pieces]
  unfold lines
  split
  · rename_i rest shape
    have pieces : pieces (· == '\n') s = rest.reverse ++ [[]] := by
      rw [← List.reverse_reverse (pieces _ s), shape, List.reverse_cons]
    rw [pieces]
    simp
  · rw [List.reverse_reverse]

end Gateware.Text
