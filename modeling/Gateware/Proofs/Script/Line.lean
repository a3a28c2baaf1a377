import Gateware.Proofs.Text.Literal
import Gateware.Proofs.Text.Spacing
import Gateware.Script.Line

/-!
# Normalized lines

A line is settled when it is spaced and no space stands between an opening bracket and the words
`list` and `info`. Normalizing a line settles it, and leaves just the settled lines as they are
(`normalizeLine_eq_self_iff`).
-/

namespace Gateware.Script

open Text

variable {s t x y : Text}

/-! ### Drawing a word to its bracket -/

/-- Drops the space between an opening bracket and the word `y`. -/
def draw (y s : Text) : Text := replace ('[' :: ' ' :: y) ('[' :: y) s

/-- The words that are drawn to an opening bracket. -/
def drawnWords : List Text := ["list", "info"]

theorem tighten_eq (s : Text) : tighten s = draw "info" (draw "list" s) := rfl

theorem draw_append (y s : Text) : draw y ('[' :: ' ' :: y ++ s) = '[' :: y ++ draw y s :=
  replace_append (List.cons_ne_nil _ _) _ s

theorem draw_cons {c : Char} (miss : stripStart? ('[' :: ' ' :: y) (c :: s) = none) :
    draw y (c :: s) = c :: draw y s := replace_cons miss _

theorem drawInduction (y : Text) {motive : Text → Prop} (nil : motive [])
    (found : ∀ s, motive s → motive ('[' :: ' ' :: y ++ s))
    (kept : ∀ c s, stripStart? ('[' :: ' ' :: y) (c :: s) = none → motive s → motive (c :: s))
    (s : Text) : motive s :=
  literalInduction (List.cons_ne_nil '[' (' ' :: y)) nil found kept s

theorem solid_draw (y s : Text) : solid (draw y s) = solid s := by
  induction s using drawInduction y with
  | nil => rfl
  | found s ih =>
    have gap : solid ('[' :: ' ' :: y) = solid ('[' :: y) := by
      rfl
    rw [draw_append, solid_append, solid_append, gap, ih]
  | kept c s miss ih =>
    rw [draw_cons miss]
    have split (t : Text) : solid (c :: t) = solid [c] ++ solid t := solid_append [c] t
    rw [split, split s, ih]

theorem head?_draw (y s : Text) : (draw y s).head? = s.head? := by
  induction s using drawInduction y with
  | nil => rfl
  | found s ih =>
    rw [draw_append]
    rfl
  | kept c s miss ih =>
    rw [draw_cons miss]
    rfl

theorem getLast?_draw (nonempty : y ≠ []) (s : Text) : (draw y s).getLast? = s.getLast? := by
  induction s using drawInduction y with
  | nil => rfl
  | found s ih =>
    rw [draw_append, List.getLast?_append, List.getLast?_append, ih,
      List.getLast?_cons_of_ne_nil nonempty, List.getLast?_cons_of_ne_nil (List.cons_ne_nil ' ' y),
      List.getLast?_cons_of_ne_nil nonempty]
  | kept c s miss ih => rw [draw_cons miss, List.getLast?_cons, List.getLast?_cons, ih]

theorem mem_of_mem_draw {c : Char} (h : c ∈ draw y s) : c ∈ s := by
  induction s using drawInduction y with
  | nil => exact h
  | found s ih =>
    rw [draw_append] at h
    simp only [List.cons_append, List.mem_cons, List.mem_append] at h ⊢
    rcases h with rfl | h | h
    · exact .inl rfl
    · exact .inr (.inr (.inl h))
    · exact .inr (.inr (.inr (ih h)))
  | kept d s miss ih =>
    rw [draw_cons miss] at h
    rcases List.mem_cons.mp h with rfl | later
    · exact List.mem_cons_self
    · exact List.mem_cons_of_mem d (ih later)

theorem isChain_draw {R : Char → Char → Prop} (bracket : ∀ c, R '[' c) (s : Text)
    (h : s.IsChain R) : (draw y s).IsChain R := by
  induction s using drawInduction y with
  | nil => exact h
  | found s ih =>
    rw [draw_append]
    obtain ⟨-, h⟩ := List.isChain_cons.mp h
    obtain ⟨-, h⟩ := List.isChain_cons.mp h
    obtain ⟨word, rest, seam⟩ := List.isChain_append.mp h
    refine List.isChain_cons.mpr ⟨fun c _ => bracket c, word.append (ih rest) ?_⟩
    rwa [head?_draw]
  | kept c s miss ih =>
    obtain ⟨next, rest⟩ := List.isChain_cons.mp h
    rw [draw_cons miss]
    refine List.isChain_cons.mpr ⟨?_, ih rest⟩
    rwa [head?_draw]

theorem spaced_draw (nonempty : y ≠ []) (h : Spaced s) : Spaced (draw y s) where
  bare := by
    unfold Bare
    rw [head?_draw, getLast?_draw nonempty]
    exact h.bare
  spaces c hc := h.spaces c (mem_of_mem_draw hc)
  single := isChain_draw (fun _ blank => absurd blank (by decide)) s h.single

/-! ### Brackets with a space behind them -/

theorem prefix_of_prefix_draw {q : Text} (free : '[' ∉ q) (h : q <+: draw y s) : q <+: s := by
  induction q generalizing s with
  | nil => exact List.nil_prefix
  | cons a q ih =>
    obtain ⟨other, rest⟩ := List.ne_and_not_mem_of_not_mem_cons free
    cases s with
    | nil => exact h
    | cons c s =>
      cases found : stripStart? ('[' :: ' ' :: y) (c :: s) with
      | some r =>
        rw [stripStart?_eq_some_iff.mp found, draw_append] at h
        exact absurd (List.cons_prefix_cons.mp h).1.symm other
      | none =>
        rw [draw_cons found] at h
        obtain ⟨rfl, later⟩ := List.cons_prefix_cons.mp h
        exact List.cons_prefix_cons.mpr ⟨rfl, ih rest later⟩

theorem infix_of_infix_append {a : Char} {p : Text} (free : a ∉ t) (h : a :: p <:+: t ++ s) :
    a :: p <:+: s := by
  induction t with
  | nil => exact h
  | cons c t ih =>
    obtain ⟨other, rest⟩ := List.ne_and_not_mem_of_not_mem_cons free
    rcases List.infix_cons_iff.mp h with here | later
    · exact absurd (List.cons_prefix_cons.mp here).1 other
    · exact ih rest later

/-- A word that neither a bracket nor a space cuts. -/
structure Unbroken (y : Text) : Prop where
  nonempty : y ≠ []
  bracket : '[' ∉ y
  space : ' ' ∉ y

theorem unbroken_of_mem_drawnWords (h : y ∈ drawnWords) : Unbroken y := by
  have all : ∀ y ∈ drawnWords, y ≠ [] ∧ '[' ∉ y ∧ ' ' ∉ y := by decide
  obtain ⟨nonempty, bracket, space⟩ := all y h
  exact ⟨nonempty, bracket, space⟩

/-- Drawing a word leaves no space before it, and makes none before another one. -/
theorem infix_of_infix_draw (hx : Unbroken x) (hy : Unbroken y)
    (h : '[' :: ' ' :: x <:+: draw y s) : x ≠ y ∧ '[' :: ' ' :: x <:+: s := by
  induction s using drawInduction y with
  | nil => exact absurd (List.infix_nil.mp h) (List.cons_ne_nil _ _)
  | found s ih =>
    rw [draw_append] at h
    rcases List.infix_cons_iff.mp h with here | later
    -- behind the bracket stands the word, which begins with no space
    · obtain ⟨a, r, rfl⟩ := List.exists_cons_of_ne_nil hy.nonempty
      obtain ⟨-, behind⟩ := List.cons_prefix_cons.mp here
      have gap : ' ' = a := (List.cons_prefix_cons.mp behind).1
      exact absurd (gap ▸ List.mem_cons_self) hy.space
    · obtain ⟨ne, inside⟩ := ih (infix_of_infix_append hy.bracket later)
      exact ⟨ne, inside.trans (List.suffix_append _ s).isInfix⟩
  | kept c s miss ih =>
    rw [draw_cons miss] at h
    rcases List.infix_cons_iff.mp h with here | later
    · obtain ⟨rfl, rest⟩ := List.cons_prefix_cons.mp here
      have free : '[' ∉ ' ' :: x := List.not_mem_cons_of_ne_of_not_mem (by decide) hx.bracket
      have begins : '[' :: ' ' :: x <+: '[' :: s :=
        List.cons_prefix_cons.mpr ⟨rfl, prefix_of_prefix_draw free rest⟩
      refine ⟨?_, begins.isInfix⟩
      rintro rfl
      exact stripStart?_eq_none_iff.mp miss begins
    · obtain ⟨ne, inside⟩ := ih later
      exact ⟨ne, inside.trans (List.suffix_cons c s).isInfix⟩

/-! ### Settled lines -/

/-- A spaced line in which no space stands between a bracket and a word that is drawn to it. -/
structure Settled (line : Text) : Prop where
  spaced : Spaced line
  drawn : ∀ y ∈ drawnWords, ¬ '[' :: ' ' :: y <:+: line

theorem settled_normalizeLine (raw : Text) : Settled (normalizeLine raw) := by
  have list : "list".toList ∈ drawnWords := by decide
  have info : "info".toList ∈ drawnWords := by decide
  have hlist := unbroken_of_mem_drawnWords list
  have hinfo := unbroken_of_mem_drawnWords info
  unfold normalizeLine
  rw [tighten_eq]
  refine ⟨spaced_draw hinfo.nonempty (spaced_draw hlist.nonempty (spaced_joinWith_words raw)),
    fun y hy found => ?_⟩
  have plain := unbroken_of_mem_drawnWords hy
  obtain ⟨not_info, found⟩ := infix_of_infix_draw plain hinfo found
  obtain ⟨not_list, -⟩ := infix_of_infix_draw plain hlist found
  rcases List.mem_cons.mp hy with rfl | hy
  · exact not_list rfl
  · exact not_info (List.mem_singleton.mp hy)

theorem normalizeLine_eq_self (h : Settled s) : normalizeLine s = s := by
  have list : draw "list" s = s := replace_eq_self_of_not_infix (h.drawn _ (by decide)) _
  have info : draw "info" s = s := replace_eq_self_of_not_infix (h.drawn _ (by decide)) _
  unfold normalizeLine
  rw [h.spaced.joinWith_words, tighten_eq, list, info]

theorem normalizeLine_eq_self_iff : normalizeLine s = s ↔ Settled s :=
  ⟨fun same => same ▸ settled_normalizeLine s, normalizeLine_eq_self⟩

theorem solid_normalizeLine (raw : Text) : solid (normalizeLine raw) = solid raw := by
  unfold normalizeLine
  rw [tighten_eq, solid_draw, solid_draw, solid_joinWith_words]

/-! ### What a line gives to its logical line -/

/-- The text without one backslash at its end. -/
def withoutBackslash (s : Text) : Text := (stripEnd? "\\" s).getD s

theorem stripEnd?_backslash (s : Text) : stripEnd? "\\" (s ++ ['\\']) = some s :=
  stripEnd?_eq_some_iff.mpr rfl

theorem stripEnd?_backslash_eq_none (h : s.getLast? ≠ some '\\') : stripEnd? "\\" s = none := by
  rw [Option.eq_none_iff_forall_ne_some]
  intro r found
  rw [stripEnd?_eq_some_iff.mp found] at h
  exact h (List.getLast?_append_of_ne_nil _ (List.cons_ne_nil _ _))

theorem withoutBackslash_append (s : Text) : withoutBackslash (s ++ ['\\']) = s := by
  unfold withoutBackslash
  rw [stripEnd?_backslash]
  rfl

theorem withoutBackslash_eq_self (h : s.getLast? ≠ some '\\') : withoutBackslash s = s := by
  unfold withoutBackslash
  rw [stripEnd?_backslash_eq_none h]
  rfl

theorem continues_iff : continues s = true ↔ s.getLast? = some '\\' := by
  unfold continues
  rw [endsWith_iff, List.getLast?_eq_some_iff]
  rfl

theorem closes_iff : closes s = true ↔ s.head? = some ']' ∨ s.head? = some '}' := by
  cases s with
  | nil => simp [closes]
  | cons c s =>
    rw [List.head?_cons, Option.some.injEq, Option.some.injEq]
    unfold closes
    split <;> simp_all

/-- A line gives what stands before a backslash at its end, or all of itself. -/
theorem body_cases (s : Text) :
    (∃ b, s = b ++ ['\\'] ∧ body s = trimEnd b) ∨ (s.getLast? ≠ some '\\' ∧ body s = s) := by
  by_cases backslash : s.getLast? = some '\\'
  · obtain ⟨b, rfl⟩ := List.getLast?_eq_some_iff.mp backslash
    refine .inl ⟨b, rfl, ?_⟩
    unfold body
    rw [stripEnd?_backslash]
  · refine .inr ⟨backslash, ?_⟩
    unfold body
    rw [stripEnd?_backslash_eq_none backslash]

/-- The last character of a line, if there is one, stays among those that are no white space. -/
theorem solid_body (h : Bare isBlank s) : solid (body s) = withoutBackslash (solid s) := by
  rcases body_cases s with ⟨b, rfl, made⟩ | ⟨other, made⟩
  · have mark : solid ['\\'] = ['\\'] := by decide
    rw [made, solid_trimEnd, solid_append, mark, withoutBackslash_append]
  · rw [made, withoutBackslash_eq_self]
    rcases List.eq_nil_or_concat' s with rfl | ⟨b, c, rfl⟩
    · nofun
    · have last : isBlank c = false := h.2 c (by simp)
      have mark : solid [c] = [c] := solid_eq_self (by simpa using last)
      rw [solid_append, mark, List.getLast?_concat]
      rwa [List.getLast?_concat] at other

/-- In a spaced line nothing but spaces is dropped before a backslash. -/
theorem body_of_spaced (h : Spaced s) : body s = trimEndBy (· == ' ') (withoutBackslash s) := by
  rcases body_cases s with ⟨b, rfl, made⟩ | ⟨other, made⟩
  · rw [made, withoutBackslash_append]
    exact trimEnd_of_spaces fun c hc => h.spaces c (List.mem_append_left _ hc)
  · rw [made, withoutBackslash_eq_self other, trimEndBy_eq_self]
    intro c hc
    rw [beq_eq_false_iff_ne]
    rintro rfl
    exact absurd (h.bare.2 ' ' hc) (by decide)

end Gateware.Script
