import Gateware.Sorted.Key
import Gateware.Text.Basic
import Mathlib.Tactic.SplitIfs

/-!
# Texts as bytes

The order of texts by their characters is the order of their bytes in UTF-8 (`bytes_lt_iff`), and
`byteSize` counts these (`length_bytes`). A byte below 128 is a character of its own
(`exists_of_bytes`).
-/

namespace Gateware.Text

/-- The bytes of the text in UTF-8. -/
def bytes (s : Text) : List UInt8 := s.flatMap String.utf8EncodeChar

theorem bytes_cons (c : Char) (s : Text) : bytes (c :: s) = String.utf8EncodeChar c ++ bytes s :=
  List.flatMap_cons

theorem bytes_append (s t : Text) : bytes (s ++ t) = bytes s ++ bytes t := List.flatMap_append

theorem length_bytes (s : Text) : (bytes s).length = byteSize s := by
  induction s with
  | nil => rfl
  | cons c s ih =>
    rw [bytes_cons, List.length_append, String.length_utf8EncodeChar, ih]
    rfl

/-- The first of the four digits to the base 64 that differs decides. -/
theorem sextets_lt {m n : Nat} (h : m < n) :
    m / 262144 < n / 262144 ∨ m / 262144 = n / 262144 ∧
      (m / 4096 % 64 < n / 4096 % 64 ∨ m / 4096 % 64 = n / 4096 % 64 ∧
        (m / 64 % 64 < n / 64 % 64 ∨ m / 64 % 64 = n / 64 % 64 ∧ m % 64 < n % 64)) := by
  have digit {x y : Nat} (h : x < y) : x / 64 < y / 64 ∨ x / 64 = y / 64 ∧ x % 64 < y % 64 := by
    omega
  have third (x : Nat) : x / 4096 = x / 64 / 64 := by omega
  have fourth (x : Nat) : x / 262144 = x / 64 / 64 / 64 := by omega
  rw [third, third, fourth, fourth]
  rcases digit h with upper | ⟨same, lower⟩
  · rcases digit upper with upper | ⟨same, lower⟩
    · rcases digit upper with upper | ⟨same, lower⟩
      · exact .inl upper
      · exact .inr ⟨same, .inl lower⟩
    · exact .inr ⟨by rw [same], .inr ⟨by rw [same], .inl lower⟩⟩
  · exact .inr ⟨by rw [same], .inr ⟨by rw [same], .inr ⟨by rw [same], lower⟩⟩⟩

/-- The bytes of a lesser character are lesser, whatever follows either. -/
theorem utf8EncodeChar_append_lt {a b : Char} (h : a.val < b.val) (s t : List UInt8) :
    String.utf8EncodeChar a ++ s < String.utf8EncodeChar b ++ t := by
  have less : a.val.toNat < b.val.toNat := UInt32.lt_iff_toNat_lt.mp h
  have bound : b.val.toNat < 1114112 := by
    rcases b.valid with low | high
    · exact Nat.lt_trans low (by decide)
    · exact high.2
  have digits := sextets_lt less
  have held {x : Nat} (byte : x < 256) : (UInt8.ofNat x).toNat = x := by
    rw [UInt8.toNat_ofNat', Nat.mod_eq_of_lt byte]
  have top {x : Nat} (valid : x < 1114112) : x / 262144 % 8 = x / 262144 :=
    Nat.mod_eq_of_lt (by omega)
  simp only [String.utf8EncodeChar]
  generalize a.val.toNat = m at less digits
  generalize b.val.toNat = n at less bound digits
  -- more bytes begin with a greater one; of as many, the first that differs decides
  split_ifs <;> simp (disch := omega) only [List.cons_append, List.nil_append,
    List.cons_lt_cons_iff, UInt8.lt_iff_toNat_lt, ← UInt8.toNat_inj, top, held] <;> omega

theorem bytes_lt_of_lt {s t : Text} (h : Key.lt s t = true) : bytes s < bytes t := by
  induction s generalizing t with
  | nil =>
    cases t with
    | nil => cases h
    | cons b t =>
      obtain ⟨x, l, first⟩ := List.exists_cons_of_ne_nil (@String.utf8EncodeChar_ne_nil b)
      rw [bytes_cons, first]
      exact List.nil_lt_cons x _
  | cons a s ih =>
    cases t with
    | nil => cases h
    | cons b t =>
      rw [bytes_cons, bytes_cons]
      rcases Key.ltList_cons.mp h with less | ⟨rfl, rest⟩
      · exact utf8EncodeChar_append_lt (of_decide_eq_true less) _ _
      · exact List.append_left_lt (ih rest)

/-- Texts stand in the order of their bytes. -/
theorem bytes_lt_iff {s t : Text} : bytes s < bytes t ↔ Key.lt s t = true := by
  refine ⟨fun less => ?_, bytes_lt_of_lt⟩
  rcases Key.connex s t with before | rfl | after
  · exact before
  · exact absurd less (List.lt_irrefl _)
  · exact absurd (bytes_lt_of_lt after) (List.lt_asymm less)

/-! ### Bytes of one character -/

theorem toNat_toUInt8 {c : Char} (ascii : c.val.toNat < 128) : c.toUInt8.toNat = c.val.toNat :=
  Nat.mod_eq_of_lt (by omega)

theorem utf8EncodeChar_ascii {c : Char} (ascii : c.val.toNat < 128) :
    String.utf8EncodeChar c = [c.toUInt8] :=
  if_pos (by omega)

/-- A byte below 128 is all of its character, and other characters have no such byte. -/
theorem mem_utf8EncodeChar {c : Char} {x : UInt8} (h : x ∈ String.utf8EncodeChar c) :
    String.utf8EncodeChar c = [x] ∧ x.toNat = c.val.toNat ∨ 128 ≤ x.toNat ∧ 128 ≤ c.val.toNat := by
  simp only [String.utf8EncodeChar] at h ⊢
  generalize c.val.toNat = v at h
  by_cases one : v ≤ 127
  · rw [if_pos one] at h ⊢
    obtain rfl := List.mem_singleton.mp h
    exact .inl ⟨rfl, Nat.mod_eq_of_lt (by omega)⟩
  · refine .inr ⟨?_, by omega⟩
    rw [if_neg one] at h
    split_ifs at h <;> simp only [List.mem_cons, List.not_mem_nil, or_false] at h
    · rcases h with rfl | rfl <;> rw [UInt8.toNat_ofNat'] <;> omega
    · rcases h with rfl | rfl | rfl <;> rw [UInt8.toNat_ofNat'] <;> omega
    · rcases h with rfl | rfl | rfl | rfl <;> rw [UInt8.toNat_ofNat'] <;> omega

theorem eq_of_utf8EncodeChar {c d : Char} (ascii : c.val.toNat < 128)
    (h : String.utf8EncodeChar d = [c.toUInt8]) : d = c := by
  have code := toNat_toUInt8 ascii
  have held : c.toUInt8 ∈ String.utf8EncodeChar d := h ▸ List.mem_cons_self
  obtain ⟨-, same⟩ := (mem_utf8EncodeChar held).resolve_right (by omega)
  exact Char.ext (UInt32.toNat_inj.mp (same.symm.trans code))

/-- Where a text has a byte below 128, it has a character of this byte alone. -/
theorem exists_of_bytes {s : Text} {x : UInt8} (small : x.toNat < 128) {before after : List UInt8}
    (h : bytes s = before ++ x :: after) :
    ∃ b c a, s = b ++ c :: a ∧ String.utf8EncodeChar c = [x] ∧ bytes b = before ∧
      bytes a = after := by
  induction s generalizing before with
  | nil => simp [bytes] at h
  | cons c s ih =>
    rw [bytes_cons] at h
    have further {rest : List UInt8} (h : bytes s = rest ++ x :: after) :
        ∃ b d a, c :: s = b ++ d :: a ∧ String.utf8EncodeChar d = [x] ∧
          bytes b = String.utf8EncodeChar c ++ rest ∧ bytes a = after := by
      obtain ⟨b, d, a, rfl, one, rfl, rfl⟩ := ih h
      exact ⟨c :: b, d, a, rfl, one, bytes_cons c b, rfl⟩
    rcases List.append_eq_append_iff.mp h with ⟨rest, rfl, later⟩ | ⟨rest, here, later⟩
    · exact further later
    · cases rest with
      | nil =>
        rw [List.append_nil] at here
        rw [← here, ← List.append_nil (String.utf8EncodeChar c)]
        exact further later.symm
      | cons y rest =>
        -- the byte is one of the first character, so it is all of it
        obtain ⟨rfl, rfl⟩ := List.cons_eq_cons.mp later
        have held : x ∈ String.utf8EncodeChar c := here ▸ by simp
        obtain ⟨one, -⟩ := (mem_utf8EncodeChar held).resolve_right (by omega)
        rw [one, eq_comm, List.append_eq_singleton_iff] at here
        rcases here with ⟨rfl, alone⟩ | ⟨-, none⟩
        · obtain ⟨-, rfl⟩ := List.cons_eq_cons.mp alone
          exact ⟨[], c, s, rfl, one, rfl, rfl⟩
        · cases none

end Gateware.Text
