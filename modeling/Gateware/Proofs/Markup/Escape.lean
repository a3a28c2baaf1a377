import Gateware.Markup.Writer
import Gateware.Proofs.Text.Numeral

/-!
# Entities are read back

`Stands` says when a piece of text stands for one character, and `unescape_flatMap` that a text
written piece by piece is unescaped to what its pieces stand for. Every piece that the writer makes
of a character stands for it (`stands_valueChar`, `stands_textChar`).
-/

namespace Gateware.Markup

open Text

/-- What the name of a reference consists of. -/
def isReferenceSign (c : Char) : Bool := c != '&' && c != ';'

/-- The piece is the character itself, or a reference to it. -/
def Stands (piece : Text) (c : Char) : Prop :=
  (piece = [c] ∧ c ≠ '&') ∨
    ∃ name, piece = referenceText name ∧ name.all isReferenceSign = true ∧
      ∀ first last, referenceChar first last name = .ok c

theorem reference?_append {name : Text} (h : name.all isReferenceSign = true) (rest : Text) :
    reference? (name ++ ';' :: rest) = some (name, rest) := by
  have plain : ∀ x ∈ name, (x != '&' && x != ';') = true := List.all_eq_true.mp h
  have stop : ∀ x ∈ (';' :: rest).head?, (x != '&' && x != ';') = false := by simp
  unfold reference?
  simp only [dropWhile_append_stop plain stop, takeWhile_append_stop plain stop]

theorem unescapeEnd_cons {c : Char} (h : c ≠ '&') (size : Nat) (s : Text) :
    unescapeEnd size (c :: s) = (unescapeEnd size s).map (c :: ·) := by
  rw [unescapeEnd, if_neg h]

theorem unescapeEnd_reference {name : Text} {c : Char} (h : name.all isReferenceSign = true)
    (stands : ∀ first last, referenceChar first last name = .ok c) (size : Nat) (s : Text) :
    unescapeEnd size (referenceText name ++ s) = (unescapeEnd size s).map (c :: ·) := by
  have shape : referenceText name ++ s = '&' :: (name ++ ';' :: s) := by simp [referenceText]
  rw [shape, unescapeEnd, if_pos rfl]
  split
  · rename_i missing
    rw [reference?_append h] at missing
    cases missing
  · rename_i name' rest found
    rw [reference?_append h] at found
    cases found
    rw [stands]

theorem unescapeEnd_piece {piece : Text} {c : Char} (h : Stands piece c) (size : Nat) (s : Text) :
    unescapeEnd size (piece ++ s) = (unescapeEnd size s).map (c :: ·) := by
  rcases h with ⟨rfl, plain⟩ | ⟨name, rfl, chars, stands⟩
  · exact unescapeEnd_cons plain size s
  · exact unescapeEnd_reference chars stands size s

/-- A text written piece by piece is unescaped to the characters that the pieces stand for. -/
theorem unescape_flatMap {f : Char → Text} (h : ∀ c, Stands (f c) c) (s : Text) :
    unescape (s.flatMap f) = .ok s := by
  unfold unescape
  generalize byteSize (s.flatMap f) = size
  induction s with
  | nil => rw [List.flatMap_nil, unescapeEnd]
  | cons c s ih => rw [List.flatMap_cons, unescapeEnd_piece (h c), ih]; rfl

/-! ### The pieces of the writer -/

theorem valueChar_cases (c : Char) :
    (∃ e ∈ entities, e.1 = c ∧ valueChar c = referenceText e.2) ∨
      (∀ e ∈ entities, e.1 ≠ c) ∧ valueChar c = [c] := by
  unfold valueChar
  cases found : entities.find? (·.1 == c) with
  | some e =>
    have same := List.find?_some found
    exact .inl ⟨e, List.mem_of_find?_eq_some found, by simpa using same, rfl⟩
  | none => exact .inr ⟨by simpa using List.find?_eq_none.mp found, rfl⟩

theorem entities_stand : ∀ e ∈ entities, e.2.all isReferenceSign = true ∧
    ∀ first last, referenceChar first last e.2 = .ok e.1 := by
  simp only [entities, List.forall_mem_cons]
  exact ⟨⟨by decide, fun _ _ => rfl⟩, ⟨by decide, fun _ _ => rfl⟩, ⟨by decide, fun _ _ => rfl⟩,
    ⟨by decide, fun _ _ => rfl⟩, ⟨by decide, fun _ _ => rfl⟩, nofun⟩

theorem stands_valueChar (c : Char) : Stands (valueChar c) c := by
  rcases valueChar_cases c with ⟨e, he, rfl, shape⟩ | ⟨plain, shape⟩
  · obtain ⟨chars, stands⟩ := entities_stand e he
    exact .inr ⟨e.2, shape, chars, stands⟩
  · exact .inl ⟨shape, (plain ('&', "amp") (by decide)).symm⟩

theorem eq_of_isSpace {c : Char} (h : isSpace c = true) :
    c = ' ' ∨ c = '\t' ∨ c = '\n' ∨ c = '\r' := by
  simpa [isSpace, or_assoc] using h

theorem stands_textChar (style : CodeStyle) (c : Char) : Stands (textChar style c) c := by
  unfold textChar
  split
  · rename_i space
    refine .inr ⟨codeName style c, rfl, ?_⟩
    rcases eq_of_isSpace space with rfl | rfl | rfl | rfl <;> cases style <;>
      exact ⟨by decide, fun _ _ => rfl⟩
  · exact stands_valueChar c

/-! ### What the pieces are made of -/

/-- Nothing that is written for a character opens a tag or closes a value. -/
theorem not_mem_valueChar {x : Char} (hx : x = '<' ∨ x = '"') (c : Char) : x ∉ valueChar c := by
  have marked : ∃ e ∈ entities, e.1 = x := by rcases hx with rfl | rfl <;> decide
  rcases valueChar_cases c with ⟨e, he, -, shape⟩ | ⟨plain, shape⟩
  · have references : ∀ e ∈ entities, '<' ∉ referenceText e.2 ∧ '"' ∉ referenceText e.2 := by decide
    rw [shape]
    rcases hx with rfl | rfl
    · exact (references e he).1
    · exact (references e he).2
  · obtain ⟨e, he, same⟩ := marked
    rw [shape, List.mem_singleton]
    exact fun h => plain e he (same.trans h)

/-- A written text has no white space and opens no tag. -/
theorem mem_textChar {style : CodeStyle} {c x : Char} (h : x ∈ textChar style c) :
    isSpace x = false ∧ x ≠ '<' := by
  unfold textChar at h
  split at h
  · rename_i space
    have codes : (referenceText (codeName style c)).all (fun x => !isSpace x && x != '<') = true := by
      rcases eq_of_isSpace space with rfl | rfl | rfl | rfl <;> cases style <;> decide
    simpa using List.all_eq_true.mp codes x h
  · rename_i visible
    refine ⟨?_, fun same => not_mem_valueChar (.inl rfl) c (same ▸ h)⟩
    rcases valueChar_cases c with ⟨e, he, -, shape⟩ | ⟨-, shape⟩
    · have references : ∀ e ∈ entities, (referenceText e.2).all (fun x => !isSpace x) = true := by
        decide
      simpa using List.all_eq_true.mp (references e he) x (shape ▸ h)
    · rw [shape, List.mem_singleton] at h
      rw [h]
      simpa using visible

end Gateware.Markup
