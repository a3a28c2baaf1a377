import Gateware.Proofs.Text.Literal
import Gateware.RegisterMap.Describable

/-!
# Lines and blocks are read back

A legible line is read as itself (`parse_written`). Cutting a list of blocks at their opening lines
gives the blocks (`cutAt_blocks`), and a closed block has the lines before its end as its content
(`closedBy?_append`).
-/

namespace Gateware

open Text

/-! ### Lines -/

namespace DescriptionLine

theorem ofText_of_plain {line : Text} (h : Plain line) : ofText line = .text line := by
  have keywords := h.not_keyword
  simp only [List.map_cons, List.map_nil, List.mem_cons, List.not_mem_nil, or_false,
    not_or] at keywords
  obtain ⟨title, endTitle, reg, endReg, field, endField, uses⟩ := keywords
  have group : stripStart? "USING " line = none := by
    have absent := h.not_uses
    unfold startsWith at absent
    exact Option.not_isSome_iff_eq_none.mp (by rw [absent]; exact Bool.false_ne_true)
  unfold ofText
  rw [if_neg title, if_neg endTitle, if_neg reg, if_neg endReg, if_neg field, if_neg endField,
    if_neg uses, group]
  show (if startsWith "WHERE n IS" line then DescriptionLine.range line else .text line) = _
  rw [h.not_range]
  rfl

theorem ofText_uses {group : Text} (h : trim group = group) :
    ofText ("USING " ++ group) = .uses group := by
  have long : "USING " ++ group ≠ String.toList "USING" := by
    intro e
    have length := congrArg List.length e
    simp at length
  unfold ofText
  rw [if_neg (by simp), if_neg (by simp), if_neg (by simp), if_neg (by simp), if_neg (by simp),
    if_neg (by simp), if_neg long, stripStart?_append]
  simp only [h]

theorem ofText_range {line : Text} (h : startsWith "WHERE n IS" line = true) :
    ofText line = .range line := by
  obtain ⟨r, rfl⟩ := startsWith_iff.mp h
  unfold ofText
  rw [if_neg (by simp), if_neg (by simp), if_neg (by simp), if_neg (by simp), if_neg (by simp),
    if_neg (by simp), if_neg (by simp)]
  show (if startsWith "WHERE n IS" ("WHERE n IS" ++ r) then
    DescriptionLine.range ("WHERE n IS" ++ r) else .text ("WHERE n IS" ++ r)) = _
  rw [h]
  rfl

theorem ofText_written {l : DescriptionLine} (h : l.Legible) : ofText l.written = l := by
  cases l with
  | uses group => exact ofText_uses h.2
  | range line => exact ofText_range h
  | text line => exact ofText_of_plain h
  | _ => rfl

theorem written_ne_nil {l : DescriptionLine} (h : l.Legible) : l.written ≠ [] := by
  cases l with
  | uses group =>
    show ("USING " : Text) ++ group ≠ []
    exact List.append_ne_nil_of_left_ne_nil (by decide) group
  | range line =>
    rintro empty
    have starts : startsWith "WHERE n IS" line = true := h
    rw [show line = [] from empty] at starts
    exact absurd starts (by decide)
  | text line => exact h.nonempty
  | _ => decide

theorem number_map_snd (n : Nat) (ls : List Text) :
    (number n ls).map Prod.snd = (ls.filter fun l => !l.isEmpty).map ofText := by
  induction ls generalizing n with
  | nil => rfl
  | cons l ls ih =>
    unfold number
    by_cases h : l.isEmpty = true
    · rw [if_pos h, ih, List.filter_cons_of_neg (by simp [h])]
    · rw [if_neg h, List.map_cons, ih, List.filter_cons_of_pos (by simpa using h), List.map_cons]

end DescriptionLine

namespace RegisterMap

/-- A list of legible lines is read as what was written. -/
theorem parse_written {ls : List DescriptionLine} (h : ∀ l ∈ ls, l.Legible) :
    parse (ls.map DescriptionLine.written) = ofDescription ls := by
  have lines : (DescriptionLine.number 1 (ls.map DescriptionLine.written)).map Prod.snd = ls := by
    have nonempty : ∀ l ∈ ls.map DescriptionLine.written, (!l.isEmpty) = true := by
      intro line hl
      obtain ⟨l, mem, rfl⟩ := List.mem_map.mp hl
      simpa using DescriptionLine.written_ne_nil (h l mem)
    rw [DescriptionLine.number_map_snd, List.filter_eq_self.mpr nonempty, List.map_map]
    calc ls.map (DescriptionLine.ofText ∘ DescriptionLine.written)
        = ls.map id := List.map_congr_left fun l hl => DescriptionLine.ofText_written (h l hl)
      _ = ls := List.map_id ls
  unfold parse
  rw [lines]

/-! ### Cutting at opening lines -/

theorem cutAt_append {opens : DescriptionLine → Bool} {lead : List DescriptionLine}
    (h : ∀ l ∈ lead, opens l = false) (ls : List DescriptionLine) :
    cutAt opens (lead ++ ls) = (lead ++ (cutAt opens ls).1, (cutAt opens ls).2) := by
  induction lead with
  | nil => rfl
  | cons l lead ih =>
    have first := h l List.mem_cons_self
    rw [List.cons_append, cutAt, ih fun l hl => h l (List.mem_cons_of_mem _ hl)]
    simp [first]

theorem decide_eq_false_of_not_mem {l : DescriptionLine} {ls : List DescriptionLine} (h : l ∉ ls) :
    ∀ l' ∈ ls, decide (l' = l) = false := by
  intro l' hl'
  rw [decide_eq_false_iff_not]
  rintro rfl
  exact h hl'

theorem cutAt_not_mem {opening : DescriptionLine} {ls : List DescriptionLine} (h : opening ∉ ls) :
    cutAt (· = opening) ls = (ls, []) := by
  have cut := cutAt_append (decide_eq_false_of_not_mem h) []
  simpa [cutAt] using cut

theorem cutAt_flatMap {α : Type} {opens : DescriptionLine → Bool} {opening : DescriptionLine}
    (ho : opens opening = true) {body : α → List DescriptionLine} {xs : List α}
    (h : ∀ x ∈ xs, ∀ l ∈ body x, opens l = false) :
    cutAt opens (xs.flatMap fun x => opening :: body x) = ([], xs.map body) := by
  induction xs with
  | nil => rfl
  | cons x xs ih =>
    have rest := ih fun y hy => h y (List.mem_cons_of_mem _ hy)
    rw [List.flatMap_cons, List.cons_append, cutAt, cutAt_append (h x List.mem_cons_self), rest]
    simp [ho]

/-- The lines before the first opening line, and the blocks after each of them. -/
theorem cutAt_blocks {α : Type} {opens : DescriptionLine → Bool} (opening : DescriptionLine)
    (ho : opens opening = true) {lead : List DescriptionLine} {body : α → List DescriptionLine}
    {xs : List α} (hlead : ∀ l ∈ lead, opens l = false)
    (h : ∀ x ∈ xs, ∀ l ∈ body x, opens l = false) :
    cutAt opens (lead ++ xs.flatMap fun x => opening :: body x) = (lead, xs.map body) := by
  rw [cutAt_append hlead, cutAt_flatMap ho h, List.append_nil]

/-! ### Closed blocks -/

theorem closedBy?_append (close : DescriptionLine) {content after : List DescriptionLine}
    (hclose : close.isKeyword = true) (h : ∀ l ∈ content, l.isKeyword = false) :
    closedBy? close (content ++ close :: after) = some content := by
  have inside : ∀ l ∈ content, (!l.isKeyword) = true := fun l hl => by simp [h l hl]
  have rest : ((content ++ close :: after).dropWhile fun l => !l.isKeyword) = close :: after := by
    rw [List.dropWhile_append_of_pos inside]
    simp [hclose]
  have kept : ((content ++ close :: after).takeWhile fun l => !l.isKeyword) = content := by
    rw [List.takeWhile_append_of_pos inside]
    simp [hclose]
  unfold closedBy?
  rw [rest, kept]
  simp

end RegisterMap

end Gateware
