import Gateware.Proofs.RegisterMap.Grammar

/-!
# Descriptions hold legible lines

Every line of the description of a describable map is legible (`legible_description`): the lines
that are put together, addresses, bits and ranges, start with a mark that no keyword has, and the
others are plain by assumption.
-/

namespace Gateware

open Text

namespace Access

theorem plain_known (kind : AccessKind) (volatile : Bool) (h : kind.isKnown = true) :
    Plain (text ⟨kind, volatile⟩) := by
  cases kind with
  | unknown tag => cases h
  | _ => cases volatile <;> decide

theorem plain_text {a : Access} (h : a.Describable) : Plain a.text := by
  obtain ⟨kind, volatile⟩ := a
  cases known : kind.isKnown with
  | true => exact plain_known kind volatile known
  | false =>
    cases kind with
    | unknown tag => exact (h tag rfl).1
    | _ => cases known

end Access

namespace RegisterMap

/-! ### The lines of a block -/

theorem mem_registerLines {l : DescriptionLine} {r : Register} :
    l ∈ registerLines r ↔ l ∈ registerContent r ∨ l = .endReg ∨
      ∃ f ∈ r.fields, l = .field ∨ l ∈ fieldContent f ∨ l = .endField := by
  simp [registerLines, fieldLines]

theorem mem_groupLines {l : DescriptionLine} {g : Group} :
    l ∈ groupLines g ↔ (∃ group ∈ g.uses, l = .uses group) ∨ l = .text g.title ∨
      l = .text g.name ∨ l = .endTitle ∨ ∃ r ∈ g.registers, l = .reg ∨ l ∈ registerLines r := by
  simp [groupLines, eq_comm]

theorem fields_describable {r : Register} (h : r.Describable) : ∀ f ∈ r.fields, f.Describable := by
  cases r with
  | imported r => exact h.2
  | concrete r => exact h.2

/-! ### Plain lines -/

/-- A line is plain when its first character starts no keyword. -/
theorem plain_cons {c : Char} (h : c ∉ ['T', 'E', 'R', 'F', 'U', 'W']) (line : Text) :
    Plain (c :: line) := by
  simp only [List.mem_cons, List.not_mem_nil, or_false, not_or] at h
  obtain ⟨title, ends, reg, field, uses, range⟩ := h
  refine ⟨List.cons_ne_nil c line, ?_, ?_, ?_⟩
  · simp [title, ends, reg, field, uses]
  · simp [startsWith, stripStart?, Ne.symm uses]
  · simp [startsWith, stripStart?, Ne.symm range]

theorem startsWith_addressText (r : ConcreteRegister) :
    startsWith "0x" (addressText r) = true := by
  have mark : ∀ n (rest : Text), startsWith "0x" (hexLiteral n ++ rest) = true := by
    intro n rest
    exact startsWith_iff.mpr ⟨hexadecimal n ++ rest, List.append_assoc _ _ _⟩
  unfold addressText
  split
  · rw [List.append_assoc, List.append_assoc]
    exact mark r.address _
  · exact List.append_nil (hexLiteral r.address) ▸ mark r.address []

theorem plain_addressText (r : ConcreteRegister) : Plain (addressText r) := by
  obtain ⟨rest, line⟩ := startsWith_iff.mp (startsWith_addressText r)
  rw [line]
  exact plain_cons (by decide) ('x' :: rest)

theorem plain_fieldText (f : ConcreteField) : Plain (fieldText f) := by
  unfold fieldText
  rw [List.append_assoc, List.append_assoc]
  exact plain_cons (c := '[') (by decide) _

/-! ### Legible lines -/

theorem legible_rangeLines (range : Option IndexRange) : ∀ l ∈ rangeLines range, l.Legible := by
  cases range with
  | none => exact fun l hl => nomatch hl
  | some r =>
    intro l hl
    rw [List.mem_singleton.mp hl]
    show startsWith "WHERE n IS" (rangeText r) = true
    rw [rangeText_eq]
    exact startsWith_iff.mpr ⟨' ' :: ("FROM" ++ ' ' ::
      (decimal r.first ++ ' ' :: ("TO" ++ ' ' :: decimal r.past))), rfl⟩

theorem legible_content {first : Text} (hfirst : Plain first) (range : Option IndexRange)
    {ls : List Text} (h : ∀ line ∈ ls, Plain line) :
    ∀ l ∈ .text first :: rangeLines range ++ ls.map DescriptionLine.text, l.Legible := by
  intro l hl
  rcases List.mem_append.mp hl with head | tail
  · rcases List.mem_cons.mp head with rfl | inside
    · exact hfirst
    · exact legible_rangeLines range l inside
  · obtain ⟨line, hline, rfl⟩ := List.mem_map.mp tail
    exact h line hline

theorem legible_fieldContent {f : Field} (h : f.Describable) :
    ∀ l ∈ fieldContent f, l.Legible := by
  cases f with
  | imported name =>
    intro l hl
    rw [List.mem_singleton.mp hl]
    exact h.1
  | concrete f =>
    have lines : ∀ line ∈ f.name :: f.access.text :: f.description, Plain line := by
      intro line hline
      rcases List.mem_cons.mp hline with rfl | hline
      · exact h.name
      rcases List.mem_cons.mp hline with rfl | hline
      · exact Access.plain_text h.access
      · exact h.description line hline
    exact legible_content (plain_fieldText f) f.range lines

theorem legible_registerContent {r : Register} (h : r.Describable) :
    ∀ l ∈ registerContent r, l.Legible := by
  cases r with
  | imported r =>
    intro l hl
    rw [List.mem_singleton.mp hl]
    exact h.1.line
  | concrete r =>
    have lines : ∀ line ∈ r.name :: r.description, Plain line := by
      intro line hline
      rcases List.mem_cons.mp hline with rfl | hline
      · exact h.1.name
      · exact h.1.description line hline
    exact legible_content (plain_addressText r) r.range lines

theorem legible_registerLines {r : Register} (h : r.Describable) :
    ∀ l ∈ registerLines r, l.Legible := by
  intro l hl
  rcases mem_registerLines.mp hl with content | rfl | ⟨f, hf, rfl | content | rfl⟩
  · exact legible_registerContent h l content
  · trivial
  · trivial
  · exact legible_fieldContent (fields_describable h f hf) l content
  · trivial

theorem legible_groupLines {g : Group} (h : g.Describable) : ∀ l ∈ groupLines g, l.Legible := by
  intro l hl
  rcases mem_groupLines.mp hl with ⟨group, hg, rfl⟩ | rfl | rfl | rfl | ⟨r, hr, rfl | inside⟩
  · exact h.uses group hg
  · exact h.title
  · exact h.name
  · trivial
  · trivial
  · exact legible_registerLines (h.registers r hr) l inside

theorem legible_description {m : RegisterMap} (h : m.Describable) :
    ∀ l ∈ description m, l.Legible := by
  intro l hl
  obtain ⟨g, hg, inside⟩ := List.mem_flatMap.mp hl
  rcases List.mem_cons.mp inside with rfl | inside
  · trivial
  · exact legible_groupLines (h.groups g hg) l inside

end RegisterMap

end Gateware
