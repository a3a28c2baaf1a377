import Gateware.Proofs.Text.Bytes
import Mathlib.Data.List.Basic
import Mathlib.Order.Bounds.Image

/-!
# Marks in a text

A mark is picked by what stands right before and after it (`Picked`). The bytes of a text have an
ASCII mark where its characters have it, with the same neighbours, so they tell the same place
(`Picked.bytes`). Only at one place can anything be put in to give the same list
(`eq_of_put_at`).
-/

namespace Gateware.Text

/-! ### Marks in a list -/

section Marks

variable {α : Type} {l : List α} {i : Nat} {a : α}

/-- The places where `mark` stands in the list. -/
def marks (mark : α) (l : List α) : Set Nat := {i | l[i]? = some mark}

/-- Those of them with nothing that `p` accepts right before or right after. -/
def marksApart (mark : α) (p : α → Bool) (l : List α) : Set Nat :=
  {i ∈ marks mark l | (∀ a ∈ (l.take i).getLast?, p a = false) ∧
    ∀ a ∈ (l.drop (i + 1)).head?, p a = false}

/-- The first mark that stands apart, or the first one if none does. -/
def Picked (mark : α) (p : α → Bool) (l : List α) (k : Nat) : Prop :=
  IsLeast (marksApart mark p l) k ∨ marksApart mark p l = ∅ ∧ IsLeast (marks mark l) k

/-- Only at one place can anything be put in to give the same list. -/
theorem eq_of_put_at {b : α} (distinct : a ≠ b) {j k : Nat} (inside : k < l.length)
    (same : ∀ s, l.take j ++ s ++ l.drop (j + 1) = l.take k ++ s ++ l.drop (k + 1)) : j = k := by
  have lengths := congrArg List.length (same [])
  simp only [List.append_nil, List.length_append, List.length_take, List.length_drop] at lengths
  have put {i : Nat} (inside : i < l.length) (c : α) :
      l.take i ++ [c] ++ l.drop (i + 1) = l.set i c := by
    rw [List.set_eq_take_append_cons_drop, if_pos inside, List.append_assoc]
    rfl
  have inside' : j < l.length := by omega
  by_contra other
  have kept (c : α) : some c = l[j]? := by
    have both := congrArg (·[j]?) (same [c])
    simp only [put inside, put inside'] at both
    rwa [List.getElem?_set_self inside', List.getElem?_set_ne (Ne.symm other)] at both
  exact distinct (Option.some.inj ((kept a).trans (kept b).symm))

theorem eq_append_of_getElem? (h : l[i]? = some a) :
    l = l.take i ++ a :: l.drop (i + 1) ∧ (l.take i).length = i := by
  obtain ⟨inside, rfl⟩ := List.getElem?_eq_some_iff.mp h
  refine ⟨?_, List.length_take_of_le inside.le⟩
  rw [← List.drop_eq_getElem_cons inside, List.take_append_drop]

end Marks

/-! ### Marks in bytes -/

/-- The place in the bytes of a text at which the character at the place `i` begins. -/
def byteOffset (s : Text) (i : Nat) : Nat := byteSize (s.take i)

theorem monotone_byteOffset (s : Text) : Monotone (byteOffset s) := by
  intro i j le
  obtain ⟨more, longer⟩ := List.take_prefix_take_left le (l := s)
  unfold byteOffset
  rw [← length_bytes, ← length_bytes, ← longer, bytes_append, List.length_append]
  exact Nat.le_add_right _ _

/-- A class of bytes that tells of each character, by any of its bytes, whether it is in a class of
characters. -/
def Tells (q : UInt8 → Bool) (p : Char → Bool) : Prop :=
  ∀ c, ∀ x ∈ String.utf8EncodeChar c, q x = p c

section Bytes

variable {s : Text} {i k : Nat} {c : Char} {p : Char → Bool} {q : UInt8 → Bool}

theorem Tells.getLast?_bytes (tells : Tells q p) (s : Text) :
    (∀ x ∈ (bytes s).getLast?, q x = false) ↔ ∀ c ∈ s.getLast?, p c = false := by
  rcases List.eq_nil_or_concat' s with rfl | ⟨s, c, rfl⟩
  · simp [bytes]
  · obtain ⟨front, x, last⟩ :=
      (List.eq_nil_or_concat' _).resolve_left (@String.utf8EncodeChar_ne_nil c)
    have same := tells c x (last ▸ List.mem_append_right front List.mem_cons_self)
    have one : bytes [c] = front ++ [x] := by rw [← last, bytes, List.flatMap_singleton]
    rw [bytes_append, one, ← List.append_assoc, List.getLast?_concat, List.getLast?_concat]
    simp [same]

theorem Tells.head?_bytes (tells : Tells q p) (s : Text) :
    (∀ x ∈ (bytes s).head?, q x = false) ↔ ∀ c ∈ s.head?, p c = false := by
  cases s with
  | nil => simp [bytes]
  | cons c s =>
    obtain ⟨x, rest, first⟩ := List.exists_cons_of_ne_nil (@String.utf8EncodeChar_ne_nil c)
    have same := tells c x (first ▸ List.mem_cons_self)
    rw [bytes_cons, first]
    simp [same]

/-- The characters around a mark are the bytes around it. -/
theorem bytes_around (ascii : c.val.toNat < 128) (h : s[i]? = some c) :
    (bytes s)[byteOffset s i]? = some c.toUInt8 ∧
      (bytes s).take (byteOffset s i) = bytes (s.take i) ∧
      (bytes s).drop (byteOffset s i + 1) = bytes (s.drop (i + 1)) := by
  have split : bytes s = bytes (s.take i) ++ c.toUInt8 :: bytes (s.drop (i + 1)) := by
    conv_lhs => rw [(eq_append_of_getElem? h).1, bytes_append, bytes_cons,
      utf8EncodeChar_ascii ascii]
    rfl
  have offset : byteOffset s i = (bytes (s.take i)).length := (length_bytes _).symm
  rw [split, offset]
  simp

theorem marks_bytes (ascii : c.val.toNat < 128) (s : Text) :
    marks c.toUInt8 (bytes s) = byteOffset s '' marks c s := by
  have code := toNat_toUInt8 ascii
  ext j
  constructor
  · intro mark
    obtain ⟨split, length⟩ := eq_append_of_getElem? mark
    obtain ⟨b, d, a, rfl, one, before, -⟩ := exists_of_bytes (by omega) split
    obtain rfl : d = c := eq_of_utf8EncodeChar ascii one
    refine ⟨b.length, by simp [marks], ?_⟩
    rw [byteOffset, List.take_left, ← length_bytes, before, length]
  · rintro ⟨i, mark, rfl⟩
    exact (bytes_around ascii mark).1

theorem marksApart_bytes (ascii : c.val.toNat < 128) (tells : Tells q p) (s : Text) :
    marksApart c.toUInt8 q (bytes s) = byteOffset s '' marksApart c p s := by
  unfold marksApart
  rw [marks_bytes ascii]
  ext j
  constructor
  · rintro ⟨⟨i, mark, rfl⟩, before, after⟩
    obtain ⟨-, left, right⟩ := bytes_around ascii mark
    rw [left, tells.getLast?_bytes] at before
    rw [right, tells.head?_bytes] at after
    exact ⟨i, ⟨mark, before, after⟩, rfl⟩
  · rintro ⟨i, ⟨mark, before, after⟩, rfl⟩
    obtain ⟨-, left, right⟩ := bytes_around ascii mark
    refine ⟨⟨i, mark, rfl⟩, ?_, ?_⟩
    · rwa [left, tells.getLast?_bytes]
    · rwa [right, tells.head?_bytes]

/-- The bytes of a text tell the same place as its characters. -/
theorem Picked.bytes (h : Picked c p s k) (ascii : c.val.toNat < 128) (tells : Tells q p) :
    Picked c.toUInt8 q (bytes s) (byteOffset s k) := by
  unfold Picked
  rw [marksApart_bytes ascii tells, marks_bytes ascii]
  rcases h with apart | ⟨none, first⟩
  · exact .inl ((monotone_byteOffset s).map_isLeast apart)
  · exact .inr ⟨by rw [none, Set.image_empty], (monotone_byteOffset s).map_isLeast first⟩

end Bytes

end Gateware.Text
