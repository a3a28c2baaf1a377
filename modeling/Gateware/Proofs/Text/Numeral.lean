import Gateware.Proofs.Text.Trim
import Gateware.Text.Numeral
import Mathlib.Data.List.Induction
import Mathlib.Tactic.SplitIfs

/-!
# Numerals are read back

`readNat?_decimal` and `readNat?_hexadecimal` say that a number written in digits is read as itself
below every bound it keeps, and `readNat?_eq_some_iff` which texts are read as a number: the
numerals in positional notation whose value keeps the bound. Digits are never blanks, signs or
separators, so a numeral ends where the next such character stands.
-/

namespace Gateware.Text

/-! ### Digits -/

theorem mem_toDigits {b n : Nat} {c : Char} (hb : 1 < b) (h : c ∈ Nat.toDigits b n) :
    ∃ d, d < b ∧ c = d.digitChar := by
  induction n using Nat.strongRecOn with
  | _ n ih =>
    rw [Nat.toDigits_eq_if hb] at h
    split at h
    · exact ⟨n, by assumption, by simpa using h⟩
    · rename_i large
      rcases List.mem_append.mp h with h | h
      · exact ih (n / b) (Nat.div_lt_self (by omega) hb) h
      · exact ⟨n % b, Nat.mod_lt n (by omega), by simpa using h⟩

theorem readDigits?_append (base acc : Nat) (s t : Text) :
    readDigits? base acc (s ++ t) =
      (readDigits? base acc s).bind fun n => readDigits? base n t := by
  induction s generalizing acc with
  | nil => rfl
  | cons c s ih =>
    simp only [List.cons_append, readDigits?]
    cases digitValue? base c with
    | none => rfl
    | some d => exact ih _

/-- Digits in any spelling `f` that keeps their values are read as the number. -/
theorem readDigits?_map_toDigits {b : Nat} {f : Char → Char} (hb : 1 < b)
    (keep : ∀ d, d < b → digitValue? b (f d.digitChar) = some d) (n : Nat) :
    readDigits? b 0 ((Nat.toDigits b n).map f) = some n := by
  induction n using Nat.strongRecOn with
  | _ n ih =>
    rw [Nat.toDigits_eq_if hb]
    split
    · rename_i small
      simp [readDigits?, keep n small]
    · rename_i large
      have smaller : n / b < n := Nat.div_lt_self (by omega) hb
      have last := keep (n % b) (Nat.mod_lt n (by omega))
      rw [List.map_append, readDigits?_append, ih _ smaller]
      simp only [Option.bind_some, List.map_cons, List.map_nil, readDigits?, last]
      rw [Nat.mul_comm, Nat.div_add_mod]

/-- The first digit of a positive number is no zero. -/
theorem head?_toDigits {b n : Nat} (hb : 1 < b) (small : b ≤ 16) (hn : 0 < n) :
    ∀ c ∈ (Nat.toDigits b n).head?, c ≠ '0' := by
  induction n using Nat.strongRecOn with
  | _ n ih =>
    rw [Nat.toDigits_eq_if hb]
    split
    · rename_i lt
      have digits : ∀ d, d < 16 → 0 < d → d.digitChar ≠ '0' := by decide
      simpa using digits n (by omega) hn
    · rename_i large
      have smaller : n / b < n := Nat.div_lt_self (by omega) hb
      have positive : 0 < n / b := Nat.div_pos (by omega) (by omega)
      have first := ih _ smaller positive
      obtain ⟨c, digits, shape⟩ := List.exists_cons_of_ne_nil (@Nat.toDigits_ne_nil (n / b) b)
      rw [shape] at first ⊢
      exact first

/-! ### Decimal numerals -/

theorem decimal_ne_nil (n : Nat) : decimal n ≠ [] := Nat.toDigits_ne_nil

theorem mem_decimal {n : Nat} {c : Char} (h : c ∈ decimal n) : ∃ d, d < 10 ∧ c = d.digitChar :=
  mem_toDigits (by decide) h

/-- A property that the ten digits have holds all over a decimal numeral. -/
theorem forall_mem_decimal {p : Char → Bool} (digits : ∀ d, d < 10 → p d.digitChar = true)
    (n : Nat) : ∀ c ∈ decimal n, p c = true := by
  intro c h
  obtain ⟨d, hd, rfl⟩ := mem_decimal h
  exact digits d hd

theorem isDecDigit_of_mem_decimal (n : Nat) : ∀ c ∈ decimal n, isDecDigit c = true :=
  forall_mem_decimal (by decide) n

theorem not_mem_decimal {x : Char} (h : ∀ d, d < 10 → d.digitChar ≠ x) (n : Nat) :
    x ∉ decimal n := by
  intro hx
  obtain ⟨d, hd, rfl⟩ := mem_decimal hx
  exact h d hd rfl

theorem readNat?_decimal {n bound : Nat} (h : n < bound) :
    readNat? 10 bound (decimal n) = some n := by
  have nonempty : (decimal n).isEmpty = false := by simpa using decimal_ne_nil n
  have value := readDigits?_map_toDigits (f := id) (b := 10) (by decide) (by decide) n
  rw [List.map_id] at value
  unfold readNat?
  rw [nonempty, decimal, value]
  simp [h]

theorem readCount?_decimal {n bound : Nat} (h : n < bound) :
    readCount? bound (decimal n) = some n := by
  have noSign : '+' ∉ decimal n := not_mem_decimal (by decide) n
  unfold readCount?
  split
  · rename_i r e
    exact absurd (e ▸ List.mem_cons_self) noSign
  · exact readNat?_decimal h

theorem readInt?_decimalInt {n : Int} {bound : Nat} (low : -(bound : Int) ≤ n)
    (high : n < bound) : readInt? bound (decimalInt n) = some n := by
  cases n with
  | ofNat n =>
    have small : n < bound := Int.ofNat_lt.mp high
    have noSign : '-' ∉ decimal n := not_mem_decimal (by decide) n
    change readInt? bound (decimal n) = some (Int.ofNat n)
    unfold readInt?
    split
    · rename_i r shape
      exact absurd (shape ▸ List.mem_cons_self) noSign
    · rw [readCount?_decimal small]
      rfl
  | negSucc n =>
    have small : n + 1 < bound + 1 := by omega
    change (readNat? 10 (bound + 1) (decimal (n + 1))).map (fun n => -(n : Int)) = _
    rw [readNat?_decimal small]
    rfl

/-- A property that the ten digits and the sign have holds all over a numeral with a sign. -/
theorem forall_mem_decimalInt {p : Char → Bool} (digits : ∀ d, d < 10 → p d.digitChar = true)
    (sign : p '-' = true) (n : Int) : ∀ c ∈ decimalInt n, p c = true := by
  cases n with
  | ofNat n => exact forall_mem_decimal digits n
  | negSucc n => exact List.forall_mem_cons.mpr ⟨sign, forall_mem_decimal digits (n + 1)⟩

theorem decimalInt_ne_nil (n : Int) : decimalInt n ≠ [] := by
  cases n with
  | ofNat n => exact decimal_ne_nil n
  | negSucc n => exact List.cons_ne_nil _ _

/-! ### Hexadecimal numerals -/

theorem hexadecimal_ne_nil (n : Nat) : hexadecimal n ≠ [] := by
  simp [hexadecimal, Nat.toDigits_ne_nil]

theorem forall_mem_hexadecimal {p : Char → Bool}
    (digits : ∀ d, d < 16 → p d.digitChar.toUpper = true) (n : Nat) :
    ∀ c ∈ hexadecimal n, p c = true := by
  intro c h
  obtain ⟨x, hx, rfl⟩ := List.mem_map.mp h
  obtain ⟨d, hd, rfl⟩ := mem_toDigits (by decide) hx
  exact digits d hd

theorem isHexDigit_of_mem_hexadecimal (n : Nat) : ∀ c ∈ hexadecimal n, isHexDigit c = true :=
  forall_mem_hexadecimal (by decide) n

theorem readNat?_hexadecimal {n bound : Nat} (h : n < bound) :
    readNat? 16 bound (hexadecimal n) = some n := by
  have nonempty : (hexadecimal n).isEmpty = false := by simpa using hexadecimal_ne_nil n
  have value := readDigits?_map_toDigits (f := Char.toUpper) (b := 16) (by decide) (by decide) n
  unfold readNat?
  rw [nonempty, hexadecimal, value]
  simp [h]

/-! ### Positional notation -/

/-- The character is the digit of this value, in lower or upper case. -/
def IsDigit (base : Nat) (c : Char) (d : Nat) : Prop :=
  d < base ∧ (c = d.digitChar ∨ c = d.digitChar.toUpper)

/-- One or more digits and the number that they write. -/
inductive Numeral (base : Nat) : Text → Nat → Prop
  | digit {c : Char} {d : Nat} : IsDigit base c d → Numeral base [c] d
  | more {s : Text} {n d : Nat} {c : Char} : Numeral base s n → IsDigit base c d →
      Numeral base (s ++ [c]) (n * base + d)

theorem Numeral.ne_nil {base n : Nat} {s : Text} (h : Numeral base s n) : s ≠ [] := by
  cases h <;> simp

/-- The codes of the digits, below ten and from ten on in both cases. -/
theorem toNat_digitChar {d : Nat} (h : d < 16) :
    (d < 10 → d.digitChar.toNat = d + 48 ∧ d.digitChar.toUpper = d.digitChar) ∧
      (10 ≤ d → d.digitChar.toNat = d + 87 ∧ d.digitChar.toUpper.toNat = d + 55) := by
  revert d
  decide

theorem digitValue?_eq_some_iff {base : Nat} (small : base ≤ 16) {c : Char} {d : Nat} :
    digitValue? base c = some d ↔ IsDigit base c d := by
  have codes : digitValue? base c =
      (if 48 ≤ c.toNat ∧ c.toNat ≤ 57 then some (c.toNat - 48)
      else if 97 ≤ c.toNat ∧ c.toNat ≤ 102 then some (c.toNat - 97 + 10)
      else if 65 ≤ c.toNat ∧ c.toNat ≤ 70 then some (c.toNat - 65 + 10)
      else none).filter (· < base) := rfl
  rw [codes, Option.filter_eq_some_iff, decide_eq_true_eq, and_comm, IsDigit]
  refine and_congr_right fun bound => ?_
  obtain ⟨low, high⟩ := toNat_digitChar (d := d) (by omega)
  simp only [← Char.toNat_inj]
  rcases Nat.lt_or_ge d 10 with h | h
  · obtain ⟨code, upper⟩ := low h
    rw [upper, code]
    split_ifs <;> simp <;> omega
  · obtain ⟨lower, upper⟩ := high h
    rw [lower, upper]
    split_ifs <;> simp <;> omega

theorem readDigits?_of_numeral {base n : Nat} (small : base ≤ 16) {s : Text}
    (h : Numeral base s n) : readDigits? base 0 s = some n := by
  induction h with
  | digit h => simp [readDigits?, (digitValue?_eq_some_iff small).mpr h]
  | more _ h ih =>
    rw [readDigits?_append, ih]
    simp [readDigits?, (digitValue?_eq_some_iff small).mpr h]

theorem numeral_of_readDigits? {base : Nat} (small : base ≤ 16) {s : Text} (nonempty : s ≠ []) :
    ∀ {n}, readDigits? base 0 s = some n → Numeral base s n := by
  induction s using List.reverseRecOn with
  | nil => exact absurd rfl nonempty
  | append_singleton s c ih =>
    intro n h
    rw [readDigits?_append] at h
    obtain ⟨m, front, last⟩ := Option.bind_eq_some_iff.mp h
    obtain ⟨d, digit, value⟩ := Option.bind_eq_some_iff.mp last
    have digit := (digitValue?_eq_some_iff small).mp digit
    obtain rfl : m * base + d = n := Option.some.inj value
    rcases List.eq_nil_or_concat s with rfl | ⟨_, _, rfl⟩
    · obtain rfl : 0 = m := Option.some.inj front
      simpa using Numeral.digit digit
    · exact .more (ih (by simp) front) digit

theorem readNat?_eq_some_iff {base bound n : Nat} (small : base ≤ 16) {s : Text} :
    readNat? base bound s = some n ↔ Numeral base s n ∧ n < bound := by
  unfold readNat?
  cases s with
  | nil => simpa using fun h : Numeral base [] n => absurd rfl h.ne_nil
  | cons c s =>
    have nonempty : c :: s ≠ [] := List.cons_ne_nil c s
    simp only [List.isEmpty_cons, Bool.false_eq_true, if_false, Option.filter_eq_some_iff,
      decide_eq_true_eq]
    exact and_congr_left fun _ =>
      ⟨numeral_of_readDigits? small nonempty, readDigits?_of_numeral small⟩

theorem Numeral.unique {base n m : Nat} (small : base ≤ 16) {s : Text} (h : Numeral base s n)
    (h' : Numeral base s m) : n = m :=
  Option.some.inj ((readDigits?_of_numeral small h).symm.trans (readDigits?_of_numeral small h'))

/-- A numeral whose number is too large is refused. -/
theorem readNat?_of_numeral {base bound n : Nat} (small : base ≤ 16) {s : Text}
    (h : Numeral base s n) : readNat? base bound s = if n < bound then some n else none := by
  split
  · rename_i fits
    exact (readNat?_eq_some_iff small).mpr ⟨h, fits⟩
  · rename_i large
    rw [Option.eq_none_iff_forall_ne_some]
    intro m found
    obtain ⟨numeral, fits⟩ := (readNat?_eq_some_iff small).mp found
    exact large (h.unique small numeral ▸ fits)

theorem Numeral.all_digits {base n : Nat} (small : base ≤ 16) {s : Text} (h : Numeral base s n) :
    ∀ c ∈ s, (digitValue? base c).isSome = true := by
  induction h with
  | digit h => simp [(digitValue?_eq_some_iff small).mpr h]
  | more _ h ih =>
    intro c hc
    rcases List.mem_append.mp hc with front | last
    · exact ih c front
    · rw [List.mem_singleton.mp last, (digitValue?_eq_some_iff small).mpr h]
      rfl

/-- What holds of the digits in both cases holds of whatever is read as a digit. -/
theorem forall_isDigit {base : Nat} (small : base ≤ 16) {p : Char → Bool}
    (digits : ∀ d, d < 16 → p d.digitChar = true ∧ p d.digitChar.toUpper = true) {c : Char}
    (h : (digitValue? base c).isSome = true) : p c = true := by
  obtain ⟨d, value⟩ := Option.isSome_iff_exists.mp h
  obtain ⟨bound, lower | upper⟩ := (digitValue?_eq_some_iff small).mp value
  · exact lower ▸ (digits d (by omega)).1
  · exact upper ▸ (digits d (by omega)).2

theorem numeral_decimal (n : Nat) : Numeral 10 (decimal n) n :=
  ((readNat?_eq_some_iff (by decide)).mp (readNat?_decimal (Nat.lt_succ_self n))).1

theorem numeral_hexadecimal (n : Nat) : Numeral 16 (hexadecimal n) n :=
  ((readNat?_eq_some_iff (by decide)).mp (readNat?_hexadecimal (Nat.lt_succ_self n))).1

/-- A decimal numeral, perhaps with a plus sign. -/
inductive Count : Text → Nat → Prop
  | plain {s : Text} {n : Nat} : Numeral 10 s n → Count s n
  | signed {s : Text} {n : Nat} : Numeral 10 s n → Count ('+' :: s) n

theorem readCount?_of_count {bound n : Nat} {s : Text} (h : Count s n) (small : n < bound) :
    readCount? bound s = some n := by
  cases h with
  | signed numeral => exact (readNat?_eq_some_iff (by decide)).mpr ⟨numeral, small⟩
  | plain numeral =>
    have first : ∀ r, s ≠ '+' :: r := by
      rintro r rfl
      exact absurd (numeral.all_digits (by decide) '+' List.mem_cons_self) (by decide)
    unfold readCount?
    split
    · exact absurd rfl (first _)
    · exact (readNat?_eq_some_iff (by decide)).mpr ⟨numeral, small⟩

theorem Count.mem {s : Text} {n : Nat} (h : Count s n) {c : Char} (hc : c ∈ s) :
    c = '+' ∨ isDecDigit c = true := by
  cases h with
  | plain numeral => exact .inr (numeral.all_digits (by decide) c hc)
  | signed numeral =>
    rcases List.mem_cons.mp hc with sign | digit
    · exact .inl sign
    · exact .inr (numeral.all_digits (by decide) c digit)

end Gateware.Text
