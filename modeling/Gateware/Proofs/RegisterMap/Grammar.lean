import Gateware.Proofs.Text.Literal
import Gateware.Proofs.Text.Numeral
import Gateware.Proofs.Text.Trim
import Gateware.RegisterMap.Describable

/-!
# Structured lines are read back

Each structured line of a description is read as what it was written for: addresses
(`address?_addressText`), ranges of indices (`range?_rangeText`), the bits of a field
(`fieldSpec?_fieldText`, `readBits_bitsSpec`) and reset values (`readReset_spelling`).
-/

namespace Gateware

open Text

namespace Grammar

theorem skipGap_eq_self {s : Text} (h : ∀ c ∈ s.head?, isGap c = false) : skipGap s = s :=
  dropWhile_eq_self h

/-- A word, one space, and what follows them. -/
theorem wordGap?_append (w : Text) {r : Text} (h : ∀ c ∈ r.head?, isGap c = false) :
    wordGap? w (w ++ ' ' :: r) = some r := by
  unfold wordGap?
  rw [stripStart?_append, Option.bind_some]
  show some (skipGap r) = some r
  rw [skipGap_eq_self h]

/-! ### Addresses -/

theorem hexNumber?_hexLiteral {n : Nat} {r : Text} (h : n < wordBound)
    (stop : ∀ c ∈ r.head?, isHexDigit c = false) :
    hexNumber? (hexLiteral n ++ r) = some (n, r) := by
  have digits := isHexDigit_of_mem_hexadecimal n
  have mark : hexMark? (hexLiteral n ++ r) = some (hexadecimal n ++ r) := by
    unfold hexMark? hexLiteral
    rw [List.append_assoc, stripStart?_append, Option.some_or]
  unfold hexNumber?
  rw [mark]
  simp only [Option.bind_eq_bind, Option.bind_some]
  rw [takeWhile_append_stop digits stop, dropWhile_append_stop digits stop, readNat?_hexadecimal h]
  rfl

theorem hexLiteral?_hexLiteral {n : Nat} (h : n < wordBound) :
    hexLiteral? (hexLiteral n) = some n := by
  unfold hexLiteral? hexMark? hexLiteral
  rw [stripStart?_append, Option.some_or, Option.getD_some, readNat?_hexadecimal h]

/-- The step of an address with an index, which nothing follows. -/
theorem increment?_step {n : Nat} (h : n < wordBound) :
    increment? (" + " ++ (hexLiteral n ++ "*n")) = some (n, []) := by
  have plus : stripStart? "+" (skipGap (" + " ++ (hexLiteral n ++ "*n"))) =
      some (' ' :: (hexLiteral n ++ "*n")) := rfl
  have start : skipGap (' ' :: (hexLiteral n ++ "*n")) = hexLiteral n ++ "*n" := rfl
  have number : hexNumber? (hexLiteral n ++ "*n") = some (n, String.toList "*n") :=
    hexNumber?_hexLiteral h (by rintro _ ⟨⟩; rfl)
  unfold increment?
  rw [plus]
  simp only [Option.bind_eq_bind, Option.bind_some]
  rw [start, number]
  rfl

end Grammar

namespace RegisterMap

open Grammar

theorem address?_addressText {r : ConcreteRegister} (h : r.Describable) :
    address? (addressText r) = some ⟨r.address, r.range.map fun _ => r.increment⟩ := by
  unfold addressText address?
  split
  · rename_i range given
    have stop : ∀ c ∈ (" + " ++ (hexLiteral r.increment ++ "*n") : Text).head?,
        isHexDigit c = false := by
      rintro _ ⟨⟩
      rfl
    rw [List.append_assoc, List.append_assoc, hexNumber?_hexLiteral h.address stop]
    simp only [Option.bind_eq_bind, Option.bind_some, increment?_step h.increment, given]
    rfl
  · rename_i fixed
    have base := hexNumber?_hexLiteral (r := []) h.address (by simp)
    rw [List.append_nil] at base
    rw [base, fixed]
    rfl

/-! ### Ranges of indices -/

theorem index?_decimal {n : Nat} {r : Text} (h : n < indexBound)
    (stop : ∀ c ∈ r.head?, isDecDigit c = false) : index? (decimal n ++ r) = some (n, r) := by
  have digits := isDecDigit_of_mem_decimal n
  rcases Nat.eq_zero_or_pos n with rfl | positive
  · rfl
  · have first : ∀ s, decimal n ++ r ≠ '0' :: s := by
      intro s e
      obtain ⟨c, t, shape⟩ := List.exists_cons_of_ne_nil (decimal_ne_nil n)
      have nonzero := head?_toDigits (b := 10) (by decide) (by decide) positive
      rw [show Nat.toDigits 10 n = c :: t from shape] at nonzero
      rw [shape] at e
      exact nonzero c rfl (List.cons.inj e).1
    unfold index?
    split
    · rename_i s e
      exact absurd e (first s)
    · rw [takeWhile_append_stop digits stop, dropWhile_append_stop digits stop,
        readNat?_decimal h]
      rfl

theorem head?_decimal_append (n : Nat) (r : Text) :
    ∀ c ∈ (decimal n ++ r).head?, isGap c = false := by
  obtain ⟨c, t, shape⟩ := List.exists_cons_of_ne_nil (decimal_ne_nil n)
  have gaps := forall_mem_decimal (p := fun c => !isGap c) (by decide) n
  have first := gaps c (shape ▸ List.mem_cons_self)
  rw [shape]
  simpa using first

theorem bare_decimal (n : Nat) : Bare isBlank (decimal n) := by
  have blanks := forall_mem_decimal (p := fun c => !isBlank c) (by decide) n
  exact bare_of_forall fun c hc => by simpa using blanks c hc

/-- The line of a range, word by word. -/
theorem rangeText_eq (r : IndexRange) :
    rangeText r = "WHERE" ++ ' ' :: ("n" ++ ' ' :: ("IS" ++ ' ' :: ("FROM" ++ ' ' ::
      (decimal r.first ++ ' ' :: ("TO" ++ ' ' :: decimal r.past))))) := by
  unfold rangeText
  generalize decimal r.first = first
  generalize decimal r.past = past
  simp

theorem trimEnd_rangeText (r : IndexRange) : trimEnd (rangeText r) = rangeText r := by
  apply trimEndBy_eq_self
  have last := (bare_decimal r.past).2
  have nonempty := decimal_ne_nil r.past
  unfold rangeText
  generalize decimal r.past = past at last nonempty
  intro c hc
  have ending := List.getLast?_eq_some_getLast nonempty
  rw [List.getLast?_append, ending, Option.some_or] at hc
  exact last c (ending ▸ hc)

theorem range?_rangeText {r : IndexRange} (h : r.Describable) : range? (rangeText r) = some r := by
  have low : r.first < indexBound := Nat.lt_trans h.nonempty h.bounded
  have first : index? (decimal r.first ++ ' ' :: ("TO" ++ ' ' :: decimal r.past)) =
      some (r.first, ' ' :: ("TO" ++ ' ' :: decimal r.past)) :=
    index?_decimal low (by rintro _ ⟨⟩; rfl)
  have past := index?_decimal (r := []) h.bounded (by simp)
  have start := head?_decimal_append r.past []
  rw [List.append_nil] at past start
  unfold range?
  rw [trimEnd_rangeText, rangeText_eq]
  simp only [Option.bind_eq_bind]
  rw [wordGap?_append _ (by rintro _ ⟨⟩; rfl), Option.bind_some,
    wordGap?_append _ (by rintro _ ⟨⟩; rfl), Option.bind_some,
    wordGap?_append _ (by rintro _ ⟨⟩; rfl), Option.bind_some,
    wordGap?_append _ (head?_decimal_append _ _), Option.bind_some, first]
  simp only [Option.bind_some]
  rw [show gap? (' ' :: ("TO" ++ ' ' :: decimal r.past)) = some ("TO" ++ ' ' :: decimal r.past)
    from rfl, Option.bind_some, wordGap?_append _ start, Option.bind_some, past]
  rfl

/-! ### Bits -/

theorem bound_text {b : Bound} (h : b.Describable) : bound b.text = b := by
  cases b with
  | num n =>
    have trimmed : trim (decimal n) = decimal n := trimBy_eq_self (bare_decimal n)
    show bound (decimal n) = .num n
    unfold bound
    rw [trimmed]
    simp only [readCount?_decimal h]
  | expr e =>
    obtain ⟨trimmed, -, -, noNumber⟩ := h
    show bound e = .expr e
    unfold bound
    rw [trimmed]
    simp only [noNumber]

/-- The text of a bound ends neither the bits nor the bound before its end. -/
theorem bound_text_closed {b : Bound} (h : b.Describable) :
    Bare isBlank b.text ∧ ']' ∉ b.text ∧ ':' ∉ b.text := by
  cases b with
  | num n =>
    exact ⟨bare_decimal n, not_mem_decimal (by decide) n, not_mem_decimal (by decide) n⟩
  | expr e =>
    obtain ⟨trimmed, bracket, colon, -⟩ := h
    exact ⟨trim_eq_self_iff.mp trimmed, bracket, colon⟩

theorem bitsSpec_closed {bits : Bits} {range : Option IndexRange} (h : bits.Describable range) :
    Bare isBlank (bitsSpec bits) ∧ ']' ∉ bitsSpec bits := by
  cases bits with
  | indexed => exact ⟨⟨by rintro _ ⟨⟩; rfl, by rintro _ ⟨⟩; rfl⟩, by decide⟩
  | span high low =>
    obtain ⟨-, hhigh, hlow, -⟩ := h
    obtain ⟨bareHigh, bracketHigh, -⟩ := bound_text_closed hhigh
    obtain ⟨bareLow, bracketLow, -⟩ := bound_text_closed hlow
    have spec : bitsSpec (.span high low) = high.text ++ ':' :: low.text := by
      simp [bitsSpec]
    rw [spec]
    refine ⟨bareHigh.join (by decide) bareLow, ?_⟩
    simp [bracketHigh, bracketLow]

theorem readBits_bitsSpec {bits : Bits} {range : Option IndexRange} (h : bits.Describable range)
    (register : Text) : readBits (bitsSpec bits) register = (bits, []) := by
  cases bits with
  | indexed => rfl
  | span high low =>
    obtain ⟨-, hhigh, hlow, ordered⟩ := h
    obtain ⟨-, -, colon⟩ := bound_text_closed hhigh
    have spec : bitsSpec (.span high low) = high.text ++ ':' :: low.text := by
      simp [bitsSpec]
    have notIndex : high.text ++ ':' :: low.text ≠ String.toList "n" := by
      intro e
      have mem : ':' ∈ high.text ++ ':' :: low.text := by simp
      rw [e] at mem
      exact absurd mem (by decide)
    unfold readBits
    rw [spec, if_neg notIndex, show (":" : Text) = [':'] from rfl, cut?_append colon]
    simp only [Option.getD_some, bound_text hhigh, bound_text hlow]
    cases high with
    | expr e => rfl
    | num high =>
      cases low with
      | expr e => rfl
      | num low =>
        have le : ¬ high < low := Nat.not_lt.mpr (ordered high low rfl rfl)
        simp only [if_neg le]

/-! ### Reset values -/

/-- Every expression is among the spellings of its documented form. -/
theorem mem_spellings (e : Text) : e ∈ FieldDefault.spellings (replace "''" "``" e) := by
  have nonempty : ("''" : Text) ≠ [] := by decide
  induction e using literalInduction nonempty with
  | nil => exact List.mem_singleton.mpr rfl
  | found s ih =>
    rw [replace_append nonempty]
    exact List.mem_append_left _ (List.mem_map_of_mem ih)
  | kept c s miss ih =>
    rw [replace_cons miss]
    unfold FieldDefault.spellings
    exact List.mem_append_right _ (List.mem_map.mpr ⟨s, ih, rfl⟩)

/-- The spelling of a describable expression is an expression with the same two forms. -/
theorem spelling_expr {short long : Text} (h : (FieldDefault.expr short long).Describable) :
    FieldDefault.isExpression (FieldDefault.expr short long).spelling = true ∧
      FieldDefault.ofExpression (FieldDefault.expr short long).spelling = .expr short long := by
  obtain ⟨e, expression, forms⟩ := h
  -- the search has an answer, because `e` itself is among the candidates
  have candidate : e ∈ FieldDefault.spellings short := by
    have documented := (FieldDefault.expr.inj forms).1
    rw [← documented]
    exact mem_spellings e
  cases found : (FieldDefault.spellings short).find? fun e =>
      FieldDefault.isExpression e && FieldDefault.ofExpression e == .expr short long with
  | none =>
    have missed := List.find?_eq_none.mp found e candidate
    simp [expression, forms] at missed
  | some first =>
    have accepted := List.find?_some found
    have chosen : (FieldDefault.expr short long).spelling = first := by
      rw [FieldDefault.spelling, found]
      rfl
    rw [chosen]
    simpa using accepted

theorem isExpression_iff {e : Text} : FieldDefault.isExpression e = true ↔
    e ≠ [] ∧ Bare isBlank e ∧ hexLiteral? e = none := by
  simp [FieldDefault.isExpression, trim_eq_self_iff, and_assoc]

/-- The text of a reset value is told apart from the bits before it. -/
theorem spelling_closed {d : FieldDefault} (h : d.Describable) :
    d.spelling ≠ [] ∧ Bare isBlank d.spelling := by
  cases d with
  | hex value =>
    have blanks := forall_mem_hexadecimal (p := fun c => !isBlank c) (by decide) value
    refine ⟨by simp [FieldDefault.spelling, hexLiteral], bare_of_forall fun c hc => ?_⟩
    rcases List.mem_append.mp hc with mark | digit
    · have marks : ("0x" : Text).all (fun c => !isBlank c) = true := by decide
      simpa using List.all_eq_true.mp marks c mark
    · simpa using blanks c digit
  | expr short long =>
    obtain ⟨expression, -⟩ := spelling_expr h
    obtain ⟨nonempty, bare, -⟩ := isExpression_iff.mp expression
    exact ⟨nonempty, bare⟩

theorem length_findAll_quotes (e : Text) :
    (findAll (fun _ s => (stripStart? "''" s).map fun r => ((), r)) e).length = quoteMarks e := by
  have nonempty : ("''" : Text) ≠ [] := by decide
  induction e using literalInduction nonempty with
  | nil => rfl
  | found s ih =>
    rw [findAll_append nonempty, List.length_cons, ih]
    rfl
  | kept c s miss ih =>
    have alone : ∀ t, c = '\'' → s = '\'' :: t → False := by
      rintro t rfl rfl
      simp [stripStart?] at miss
    rw [findAll_cons miss, ih, quoteMarks]
    exact alone

theorem readReset_spelling {d : FieldDefault} (h : d.Describable) (bits : Bits) (register : Text) :
    readReset d.spelling bits register = (d, d.remarks register bits) := by
  cases d with
  | hex value =>
    have overflow : (bits.width?.any fun w => decide (w < bitLength value)) = true ↔
        ¬ (FieldDefault.hex value).Fits bits.width? := by
      show _ ↔ ¬ ∀ w, bits.width? = some w → value < Nat.pow 2 w
      cases bits.width? with
      | none => simp
      | some w =>
        have fits := bitLength_le_iff (n := value) (w := w)
        simp only [Option.any_some, decide_eq_true_eq, Option.some.injEq, forall_eq', ← fits]
        exact Nat.not_le.symm
    have literal : hexLiteral? (FieldDefault.hex value).spelling = some value :=
      hexLiteral?_hexLiteral h
    unfold readReset FieldDefault.remarks
    simp only [literal]
    by_cases fits : (FieldDefault.hex value).Fits bits.width?
    · rw [if_pos fits, if_neg fun o => overflow.mp o fits]
    · rw [if_neg fits, if_pos (overflow.mpr fits)]
  | expr short long =>
    obtain ⟨expression, forms⟩ := spelling_expr h
    obtain ⟨-, -, noNumber⟩ := isExpression_iff.mp expression
    have closed : (FieldDefault.expr short long).Fits bits.width? ↔
        quoteMarks (FieldDefault.expr short long).spelling % 2 = 0 := Iff.rfl
    unfold readReset FieldDefault.remarks
    simp only [noNumber, length_findAll_quotes]
    rw [← FieldDefault.ofExpression, forms]
    by_cases even : quoteMarks (FieldDefault.expr short long).spelling % 2 = 0
    · rw [if_pos even, if_pos (closed.mpr even)]
    · rw [if_neg even, if_neg (mt closed.mp even)]

/-! ### Field lines -/

theorem fieldSpec?_fieldText {f : ConcreteField} (h : f.Describable) :
    fieldSpec? (fieldText f) = some ⟨bitsSpec f.bits, f.reset.map FieldDefault.spelling⟩ := by
  obtain ⟨bare, bracket⟩ := bitsSpec_closed h.bits
  have trimmed : trim (bitsSpec f.bits) = bitsSpec f.bits := trimBy_eq_self bare
  have shape : fieldText f = "[" ++ (bitsSpec f.bits ++ ']' ::
      (f.reset.map fun d => ' ' :: d.spelling).getD []) := by
    simp [fieldText]
  unfold fieldSpec?
  rw [shape, stripStart?_append]
  simp only [Option.bind_eq_bind, Option.bind_some]
  rw [show ("]" : Text) = [']'] from rfl, cut?_append bracket]
  simp only [Option.bind_some, trimmed]
  cases given : f.reset with
  | none => rfl
  | some d =>
    obtain ⟨nonempty, ends⟩ := spelling_closed (h.reset d given)
    have value : trim d.spelling = d.spelling := trimBy_eq_self ends
    have gap : gap? (' ' :: d.spelling) = some d.spelling := by
      show some (skipGap d.spelling) = some d.spelling
      rw [skipGap_eq_self]
      intro c hc
      have notBlank := ends.1 c hc
      by_cases isGap : isGap c = true
      · simp only [Grammar.isGap, Bool.or_eq_true, beq_iff_eq] at isGap
        rcases isGap with rfl | rfl <;> exact absurd notBlank (by decide)
      · simpa using isGap
    simp only [Option.map_some, Option.getD_some, gap, value]
    simp [nonempty]

end RegisterMap

end Gateware
