import Gateware.Text.Blank
import Gateware.Text.WordChar

/-!
# The characters of a set

A set that is left wherever it is entered holds finitely many characters (`mem_codes`), so what is
said of each of them can be checked one by one: no blank belongs to a word
(`isWordChar_of_isBlank`).
-/

namespace Gateware.Text

/-- The code points from each bound at which the set is entered up to the next one. -/
def CodeSet.codes : List Nat → List Nat
  | a :: b :: bounds => List.range' a (b - a) ++ codes bounds
  | _ => []

theorem CodeSet.mem_codes {c : Char} {bounds : List Nat} (closed : bounds.length % 2 = 0)
    (h : contains ⟨bounds⟩ c = true) : c.toNat ∈ codes bounds := by
  fun_induction codes bounds with
  | case1 a b bounds ih =>
    rw [List.mem_append, List.mem_range'_1]
    unfold contains at h ih
    simp only [List.length_cons] at closed
    by_cases entered : a ≤ c.toNat
    · by_cases left : b ≤ c.toNat
      · simp only [List.takeWhile_cons, entered, left, decide_true, if_true, List.length_cons,
          beq_iff_eq] at h ih
        exact .inr (ih (by omega) (by omega))
      · exact .inl (by omega)
    · simp [entered] at h
  | case2 bounds other =>
    match bounds with
    | [] => simp [contains] at h
    | [a] => simp at closed
    | a :: b :: bounds => exact absurd rfl (other a b bounds)

theorem isWordChar_of_isBlank {c : Char} (h : isBlank c = true) : isWordChar c = false := by
  have each : ∀ n ∈ CodeSet.codes blankCodes.bounds, isWordChar (Char.ofNat n) = false := by
    decide +kernel
  have code := CodeSet.mem_codes (by decide) h
  rw [← Char.ofNat_toNat c]
  exact each _ code

end Gateware.Text
