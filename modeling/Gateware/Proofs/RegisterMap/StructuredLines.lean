import Gateware.Proofs.RegisterMap.Grammar
import Mathlib.Data.List.TakeWhile

/-!
# The structured lines, exactly

`IsAddress` and `IsRange` say what an address line and a line for a range of indices look like:
the words, the gaps between them, and numerals below their bound. `structuredLines_exact` states
that the readers accept these lines and no other, with the numbers that they write, so a number that
is too large is refused and what is written is read back.
-/

namespace Gateware.Grammar

open Text

variable {s r g h a b : Text} {n m k : Nat}

/-! ### The language -/

/-- Any number of spaces and tabs. -/
def Gap (s : Text) : Prop := ∀ c ∈ s, c = ' ' ∨ c = '\t'

/-- A mark in either case and hexadecimal digits, whatever number they write. -/
inductive MarkedHex : Text → Nat → Prop
  | lower {digits : Text} {n : Nat} : Numeral 16 digits n → MarkedHex ("0x" ++ digits) n
  | upper {digits : Text} {n : Nat} : Numeral 16 digits n → MarkedHex ("0X" ++ digits) n

/-- A base, and perhaps a step: the index alone, or a number times the index. -/
inductive IsAddress : Text → Address → Prop
  | fixed {h g : Text} {base : Nat} : MarkedHex h base → base < wordBound → Gap g →
      IsAddress (h ++ g) ⟨base, none⟩
  | indexed {h g₁ g₂ g₃ : Text} {base : Nat} : MarkedHex h base → base < wordBound →
      Gap g₁ → Gap g₂ → Gap g₃ →
      IsAddress (h ++ (g₁ ++ '+' :: (g₂ ++ 'n' :: g₃))) ⟨base, some 1⟩
  | stepped {h k g₁ g₂ g₃ g₄ g₅ : Text} {base step : Nat} : MarkedHex h base → base < wordBound →
      MarkedHex k step → step < wordBound → Gap g₁ → Gap g₂ → Gap g₃ → Gap g₄ → Gap g₅ →
      IsAddress (h ++ (g₁ ++ '+' :: (g₂ ++ (k ++ (g₃ ++ '*' :: (g₄ ++ 'n' :: g₅))))))
        ⟨base, some step⟩

/-- Words in a row with spaces or tabs between them, one at least. -/
inductive Gapped : List Text → Text → Prop
  | last (w : Text) : Gapped [w] w
  | more {w g s : Text} {ws : List Text} : Gap g → g ≠ [] → Gapped ws s →
      Gapped (w :: ws) (w ++ (g ++ s))

/-- A decimal numeral that starts with a zero only where it is zero. -/
structure IsIndex (s : Text) (n : Nat) : Prop where
  numeral : Numeral 10 s n
  bounded : n < indexBound
  plain : s.head? = some '0' → s = ['0']

/-- The words of a line around its two numbers. -/
def rangeWords (first past : Text) : List Text := ["WHERE", "n", "IS", "FROM", first, "TO", past]

def IsRange (line : Text) (r : IndexRange) : Prop :=
  ∃ first past, IsIndex first r.first ∧ IsIndex past r.past ∧ Gapped (rangeWords first past) line

/-! ### Gaps -/

theorem isGap_iff {c : Char} : isGap c = true ↔ c = ' ' ∨ c = '\t' := by simp [isGap]

theorem gap_iff : Gap g ↔ ∀ c ∈ g, isGap c = true := by simp only [Gap, isGap_iff]

theorem skipGap_append (gap : Gap g) (stop : ∀ c ∈ r.head?, isGap c = false) :
    skipGap (g ++ r) = r :=
  dropWhile_append_stop (gap_iff.mp gap) stop

theorem exists_gap (s : Text) :
    ∃ g, Gap g ∧ s = g ++ skipGap s ∧ ∀ c ∈ (skipGap s).head?, isGap c = false :=
  ⟨s.takeWhile isGap, gap_iff.mpr fun _ hc => (List.mem_takeWhile_imp hc),
    (List.takeWhile_append_dropWhile ..).symm, head?_dropWhile s⟩

theorem skipGap_eq_nil_iff : skipGap s = [] ↔ Gap s := by
  rw [gap_iff]
  exact List.dropWhile_eq_nil_iff

/-- A mark behind any gap. -/
theorem stripStart?_skipGap_iff {x : Char} (mark : isGap x = false) :
    stripStart? [x] (skipGap s) = some r ↔ ∃ g, Gap g ∧ s = g ++ x :: r := by
  constructor
  · intro found
    obtain ⟨g, gap, split, -⟩ := exists_gap s
    rw [stripStart?_eq_some_iff.mp found] at split
    exact ⟨g, gap, split⟩
  · rintro ⟨g, gap, rfl⟩
    rw [skipGap_append gap (by simpa using mark)]
    exact stripStart?_append [x] r

theorem gap?_eq_some_iff : gap? s = some r ↔
    ∃ g, Gap g ∧ g ≠ [] ∧ s = g ++ r ∧ ∀ c ∈ r.head?, isGap c = false := by
  constructor
  · intro found
    cases s with
    | nil => cases found
    | cons c s =>
      by_cases first : isGap c = true
      · obtain ⟨g, gap, split, stop⟩ := exists_gap s
        have rest : skipGap s = r := by simpa [gap?, first] using found
        rw [rest] at split stop
        refine ⟨c :: g, ?_, List.cons_ne_nil c g, by rw [split]; rfl, stop⟩
        exact List.forall_mem_cons.mpr ⟨isGap_iff.mp first, gap⟩
      · simp [gap?, first] at found
  · rintro ⟨g, gap, nonempty, rfl, stop⟩
    cases g with
    | nil => exact absurd rfl nonempty
    | cons c g =>
      have first := gap_iff.mp gap c List.mem_cons_self
      have later : Gap g := fun x hx => gap x (List.mem_cons_of_mem c hx)
      simp only [List.cons_append, gap?, first, if_true, skipGap_append later stop]

/-! ### Numbers -/

theorem MarkedHex.head (hex : MarkedHex h n) : ∃ t, h = '0' :: t := by
  cases hex <;> exact ⟨_, rfl⟩

theorem MarkedHex.hexMark? (hex : MarkedHex h n) (r : Text) :
    ∃ digits, Numeral 16 digits n ∧ Grammar.hexMark? (h ++ r) = some (digits ++ r) := by
  cases hex with
  | lower digits => exact ⟨_, digits, rfl⟩
  | upper digits => exact ⟨_, digits, rfl⟩

/-- A literal is read as far as digits go, and refused when its number is too large. -/
theorem hexNumber?_append (hex : MarkedHex h n) (stop : ∀ c ∈ r.head?, isHexDigit c = false) :
    hexNumber? (h ++ r) = if n < wordBound then some (n, r) else none := by
  obtain ⟨digits, numeral, mark⟩ := hex.hexMark? r
  have run : ∀ c ∈ digits, isHexDigit c = true := numeral.all_digits (by decide)
  unfold hexNumber?
  rw [mark]
  simp only [Option.bind_eq_bind, Option.bind_some]
  rw [takeWhile_append_stop run stop, dropWhile_append_stop run stop,
    readNat?_of_numeral (by decide) numeral]
  split <;> rfl

theorem hexNumber?_eq_some (found : hexNumber? s = some (n, r)) :
    ∃ h, MarkedHex h n ∧ n < wordBound ∧ s = h ++ r := by
  unfold hexNumber? at found
  simp only [Option.bind_eq_bind, Option.bind_eq_some_iff] at found
  obtain ⟨rest, mark, value, number, same⟩ := found
  obtain ⟨rfl, rfl⟩ := Prod.mk.inj (Option.some.inj same)
  obtain ⟨numeral, small⟩ := (readNat?_eq_some_iff (by decide)).mp number
  have split := List.takeWhile_append_dropWhile (p := isHexDigit) (l := rest)
  rcases Option.or_eq_some_iff.mp mark with lower | ⟨-, upper⟩
  · refine ⟨_, .lower numeral, small, ?_⟩
    rw [List.append_assoc, split]
    exact stripStart?_eq_some_iff.mp lower
  · refine ⟨_, .upper numeral, small, ?_⟩
    rw [List.append_assoc, split]
    exact stripStart?_eq_some_iff.mp upper

theorem index?_append (index : IsIndex a n) (stop : ∀ c ∈ r.head?, isDecDigit c = false) :
    index? (a ++ r) = some (n, r) := by
  have run : ∀ c ∈ a, isDecDigit c = true := index.numeral.all_digits (by decide)
  have number := (readNat?_eq_some_iff (by decide)).mpr ⟨index.numeral, index.bounded⟩
  unfold index?
  split
  · rename_i rest shape
    have zero : a = ['0'] := by
      cases a with
      | nil => exact absurd rfl index.numeral.ne_nil
      | cons c a => exact index.plain (by rw [(List.cons.inj shape).1]; rfl)
    subst zero
    obtain rfl : r = rest := (List.cons.inj shape).2
    rw [index.numeral.unique (by decide) (.digit ⟨by decide, .inl rfl⟩ : Numeral 10 ['0'] 0)]
  · rw [takeWhile_append_stop run stop, dropWhile_append_stop run stop, number]
    rfl

theorem index?_eq_some (found : index? s = some (n, r)) : ∃ a, IsIndex a n ∧ s = a ++ r := by
  unfold index? at found
  split at found
  · obtain ⟨rfl, rfl⟩ := Prod.mk.inj (Option.some.inj found)
    exact ⟨['0'], ⟨.digit ⟨by decide, .inl rfl⟩, by decide, fun _ => rfl⟩, rfl⟩
  · rename_i first
    obtain ⟨value, number, same⟩ := Option.map_eq_some_iff.mp found
    obtain ⟨rfl, rfl⟩ := Prod.mk.inj same
    obtain ⟨numeral, small⟩ := (readNat?_eq_some_iff (by decide)).mp number
    refine ⟨s.takeWhile isDecDigit, ⟨numeral, small, fun zero => ?_⟩,
      (List.takeWhile_append_dropWhile ..).symm⟩
    -- a leading zero is met by the other case
    cases s with
    | nil => cases zero
    | cons c s =>
      obtain rfl : c = '0' := by
        by_cases digit : isDecDigit c = true <;> simp_all
      exact absurd rfl (first s)

/-! ### Addresses -/

/-- What may follow the plus sign of an address, with the step that it gives and what remains. -/
inductive IsStep : Text → Nat → Text → Prop
  | index (r : Text) : IsStep ('n' :: r) 1 r
  | times {k g₁ g₂ r : Text} {step : Nat} : MarkedHex k step → step < wordBound →
      Gap g₁ → Gap g₂ → IsStep (k ++ (g₁ ++ '*' :: (g₂ ++ 'n' :: r))) step r

theorem increment?_eq_some (found : increment? s = some (k, r)) :
    ∃ g₁ g₂ t, Gap g₁ ∧ Gap g₂ ∧ s = g₁ ++ '+' :: (g₂ ++ t) ∧ IsStep t k r := by
  unfold increment? at found
  simp only [Option.bind_eq_bind, Option.bind_eq_some_iff] at found
  obtain ⟨rest, plus, found⟩ := found
  obtain ⟨g₁, gap₁, rfl⟩ := (stripStart?_skipGap_iff (x := '+') (by decide)).mp plus
  obtain ⟨g₂, gap₂, split, -⟩ := exists_gap rest
  refine ⟨g₁, g₂, skipGap rest, gap₁, gap₂, by rw [← split], ?_⟩
  rcases Option.or_eq_some_iff.mp found with product | ⟨-, bare⟩
  · simp only [Option.bind_eq_some_iff, Prod.exists] at product
    obtain ⟨step, after, number, t₁, star, t₂, letter, same⟩ := product
    obtain ⟨rfl, rfl⟩ := Prod.mk.inj (Option.some.inj same)
    obtain ⟨h, hex, small, shape⟩ := hexNumber?_eq_some number
    obtain ⟨g₃, gap₃, rfl⟩ := (stripStart?_skipGap_iff (x := '*') (by decide)).mp star
    obtain ⟨g₄, gap₄, rfl⟩ := (stripStart?_skipGap_iff (x := 'n') (by decide)).mp letter
    rw [shape]
    exact .times hex small gap₃ gap₄
  · obtain ⟨t, letter, same⟩ := Option.map_eq_some_iff.mp bare
    obtain ⟨rfl, rfl⟩ := Prod.mk.inj same
    rw [stripStart?_eq_some_iff.mp letter]
    exact .index t

theorem head?_gap_append {x : Char} {p : Char → Bool} (gap : Gap g) (mark : p x = false)
    (space : p ' ' = false) (tab : p '\t' = false) :
    ∀ c ∈ (g ++ x :: r).head?, p c = false := by
  intro c hc
  cases g with
  | nil =>
    obtain rfl := Option.some.inj hc
    exact mark
  | cons d g =>
    obtain rfl := Option.some.inj hc
    rcases gap d List.mem_cons_self with rfl | rfl
    · exact space
    · exact tab

theorem increment?_append {t : Text} (gap₁ : Gap g) (gap₂ : Gap h) (step : IsStep t k r) :
    increment? (g ++ '+' :: (h ++ t)) = some (k, r) := by
  have plus : stripStart? "+" (skipGap (g ++ '+' :: (h ++ t))) = some (h ++ t) :=
    (stripStart?_skipGap_iff (by decide)).mpr ⟨g, gap₁, rfl⟩
  unfold increment?
  rw [plus]
  simp only [Option.bind_eq_bind, Option.bind_some]
  cases step with
  | index =>
    rw [skipGap_append gap₂ (by simp; decide)]
    rfl
  | @times k g₁ g₂ _ _ hex small gap₃ gap₄ =>
    obtain ⟨t, first⟩ := hex.head
    have start : skipGap (h ++ (k ++ (g₁ ++ '*' :: (g₂ ++ 'n' :: r)))) =
        k ++ (g₁ ++ '*' :: (g₂ ++ 'n' :: r)) :=
      skipGap_append gap₂ (by rw [first]; simp; decide)
    have stop := head?_gap_append (r := g₂ ++ 'n' :: r) gap₃ (p := isHexDigit) (x := '*')
      (by decide) (by decide) (by decide)
    have star : stripStart? "*" (skipGap (g₁ ++ '*' :: (g₂ ++ 'n' :: r))) = some (g₂ ++ 'n' :: r) :=
      (stripStart?_skipGap_iff (by decide)).mpr ⟨g₁, gap₃, rfl⟩
    have letter : stripStart? "n" (skipGap (g₂ ++ 'n' :: r)) = some r :=
      (stripStart?_skipGap_iff (by decide)).mpr ⟨g₂, gap₄, rfl⟩
    rw [start, hexNumber?_append hex stop, if_pos small]
    simp only [Option.bind_some, star, letter]
    rfl

/-- Without a plus sign there is no step. -/
theorem increment?_gap (gap : Gap g) : increment? g = none := by
  unfold increment?
  rw [skipGap_eq_nil_iff.mpr gap]
  rfl

theorem address?_eq_some (found : address? s = some e) : IsAddress s e := by
  unfold address? at found
  simp only [Option.bind_eq_bind, Option.bind_eq_some_iff, Prod.exists] at found
  obtain ⟨base, rest, number, found⟩ := found
  obtain ⟨h, hex, small, rfl⟩ := hexNumber?_eq_some number
  cases stepped : increment? rest with
  | none =>
    simp only [stepped, Option.ite_none_right_eq_some, List.isEmpty_iff] at found
    obtain ⟨ends, same⟩ := found
    rw [← Option.some.inj same]
    exact .fixed hex small (skipGap_eq_nil_iff.mp ends)
  | some pair =>
    obtain ⟨step, after⟩ := pair
    simp only [stepped, Option.ite_none_right_eq_some, List.isEmpty_iff] at found
    obtain ⟨ends, same⟩ := found
    rw [← Option.some.inj same]
    obtain ⟨g₁, g₂, t, gap₁, gap₂, rfl, form⟩ := increment?_eq_some stepped
    have gap₃ := skipGap_eq_nil_iff.mp ends
    cases form with
    | index => exact .indexed hex small gap₁ gap₂ gap₃
    | times hex' small' gap gap' =>
      exact .stepped hex small hex' small' gap₁ gap₂ gap gap' gap₃

theorem address?_stepped {t : Text} (hex : MarkedHex h n) (small : n < wordBound) (gap₁ : Gap a)
    (gap₂ : Gap b) (step : IsStep t k g) (gap₃ : Gap g) :
    address? (h ++ (a ++ '+' :: (b ++ t))) = some ⟨n, some k⟩ := by
  have stop := head?_gap_append (r := b ++ t) gap₁ (p := isHexDigit) (x := '+')
    (by decide) (by decide) (by decide)
  unfold address?
  rw [hexNumber?_append hex stop, if_pos small]
  simp only [Option.bind_eq_bind, Option.bind_some, increment?_append gap₁ gap₂ step,
    skipGap_eq_nil_iff.mpr gap₃]
  rfl

theorem address?_eq_some_iff {e : Address} : address? s = some e ↔ IsAddress s e := by
  refine ⟨address?_eq_some, fun form => ?_⟩
  cases form with
  | @fixed h g base hex small gap =>
    have stop : ∀ c ∈ g.head?, isHexDigit c = false := by
      intro c hc
      rcases gap c (List.mem_of_mem_head? hc) with rfl | rfl <;> decide
    unfold address?
    rw [hexNumber?_append hex stop, if_pos small]
    simp only [Option.bind_eq_bind, Option.bind_some, increment?_gap gap,
      skipGap_eq_nil_iff.mpr gap]
    rfl
  | indexed hex small gap₁ gap₂ gap₃ =>
    exact address?_stepped hex small gap₁ gap₂ (.index _) gap₃
  | stepped hex small hex' small' gap₁ gap₂ gap gap' gap₃ =>
    exact address?_stepped hex small gap₁ gap₂ (.times hex' small' gap gap') gap₃

/-! ### Ranges of indices -/

theorem wordGap?_eq_some_iff {w : Text} : wordGap? w s = some r ↔
    ∃ g, Gap g ∧ g ≠ [] ∧ s = w ++ (g ++ r) ∧ ∀ c ∈ r.head?, isGap c = false := by
  unfold wordGap?
  simp only [Option.bind_eq_some_iff, stripStart?_eq_some_iff, gap?_eq_some_iff]
  constructor
  · rintro ⟨t, rfl, g, gap, nonempty, rfl, stop⟩
    exact ⟨g, gap, nonempty, rfl, stop⟩
  · rintro ⟨g, gap, nonempty, rfl, stop⟩
    exact ⟨_, rfl, g, gap, nonempty, rfl, stop⟩

theorem Gapped.of_wordGap? {w : Text} {ws : List Text} (found : wordGap? w s = some r)
    (later : Gapped ws r) : Gapped (w :: ws) s := by
  obtain ⟨g, gap, nonempty, rfl, -⟩ := wordGap?_eq_some_iff.mp found
  exact .more gap nonempty later

/-- A text in words starts as its first word does. -/
theorem Gapped.head {w : Text} {ws : List Text} (h : Gapped (w :: ws) s) (nonempty : w ≠ [])
    (word : ∀ c ∈ w.head?, isGap c = false) : ∀ c ∈ s.head?, isGap c = false := by
  obtain ⟨c, t, rfl⟩ := List.exists_cons_of_ne_nil nonempty
  have first := word c rfl
  cases h <;> simpa using first

theorem Gapped.cut {w v : Text} {ws : List Text} (h : Gapped (w :: v :: ws) s) :
    ∃ g t, Gap g ∧ g ≠ [] ∧ s = w ++ (g ++ t) ∧ Gapped (v :: ws) t := by
  cases h with
  | more gap nonempty later => exact ⟨_, _, gap, nonempty, rfl, later⟩

theorem Gapped.wordGap? {w v : Text} {ws : List Text} (h : Gapped (w :: v :: ws) s)
    (nonempty : v ≠ []) (word : ∀ c ∈ v.head?, isGap c = false) :
    ∃ t, Grammar.wordGap? w s = some t ∧ Gapped (v :: ws) t := by
  obtain ⟨g, t, gap, apart, rfl, later⟩ := h.cut
  exact ⟨t, wordGap?_eq_some_iff.mpr ⟨g, gap, apart, rfl, later.head nonempty word⟩, later⟩

theorem Gapped.eq {w : Text} (h : Gapped [w] s) : s = w := by
  cases h with
  | last => rfl
  | more _ _ later => cases later

theorem head?_gap (gap : Gap g) (nonempty : g ≠ []) :
    ∀ c ∈ (g ++ r).head?, isDecDigit c = false := by
  obtain ⟨x, t, rfl⟩ := List.exists_cons_of_ne_nil nonempty
  rintro _ ⟨⟩
  rcases gap x List.mem_cons_self with rfl | rfl <;> decide

theorem head_numeral (numeral : Numeral 10 a n) : ∀ c ∈ a.head?, isGap c = false := by
  intro c hc
  have digit : isDecDigit c = true := numeral.all_digits (by decide) c (List.mem_of_mem_head? hc)
  rw [Bool.eq_false_iff, ne_eq, isGap_iff]
  rintro (rfl | rfl) <;> exact absurd digit (by decide)

/-- The words of a range line up to its first number, and what stands behind that. -/
theorem Gapped.opening (words : Gapped (rangeWords a b) s) (nonempty : a ≠ [])
    (first : ∀ c ∈ a.head?, isGap c = false) :
    ∃ r₁ r₂ r₃ g t, Grammar.wordGap? "WHERE" s = some r₁ ∧ Grammar.wordGap? "n" r₁ = some r₂ ∧
      Grammar.wordGap? "IS" r₂ = some r₃ ∧ Grammar.wordGap? "FROM" r₃ = some (a ++ (g ++ t)) ∧
      Gap g ∧ g ≠ [] ∧ Gapped ["TO", b] t := by
  obtain ⟨r₁, word₁, words⟩ := words.wordGap? (by decide) (by rintro _ ⟨⟩; rfl)
  obtain ⟨r₂, word₂, words⟩ := words.wordGap? (by decide) (by rintro _ ⟨⟩; rfl)
  obtain ⟨r₃, word₃, words⟩ := words.wordGap? (by decide) (by rintro _ ⟨⟩; rfl)
  obtain ⟨r₄, word₄, words⟩ := words.wordGap? nonempty first
  obtain ⟨g, t, gap, apart, rfl, tail⟩ := words.cut
  exact ⟨r₁, r₂, r₃, g, t, word₁, word₂, word₃, word₄, gap, apart, tail⟩

theorem range?_eq_some_iff {line : Text} {e : IndexRange} :
    range? line = some e ↔ IsRange (trimEnd line) e := by
  constructor
  · intro found
    unfold range? at found
    simp only [Option.bind_eq_bind, Option.bind_eq_some_iff, Prod.exists] at found
    obtain ⟨r₁, word₁, r₂, word₂, r₃, word₃, r₄, word₄, first, r₅, low, r₆, gap, r₇, word₅, past,
      r₈, high, found⟩ := found
    obtain ⟨ends, same⟩ := Option.ite_none_right_eq_some.mp found
    obtain rfl := List.isEmpty_iff.mp ends
    rw [← Option.some.inj same]
    obtain ⟨a, isFirst, rfl⟩ := index?_eq_some low
    obtain ⟨b, isPast, rfl⟩ := index?_eq_some high
    obtain ⟨g, isGap, nonempty, rfl, -⟩ := gap?_eq_some_iff.mp gap
    rw [List.append_nil] at word₅
    have tail : Gapped ["TO", b] r₆ := .of_wordGap? word₅ (.last b)
    have middle : Gapped [a, "TO", b] (a ++ (g ++ r₆)) := .more isGap nonempty tail
    exact ⟨a, b, isFirst, isPast, .of_wordGap? word₁ (.of_wordGap? word₂ (.of_wordGap? word₃
      (.of_wordGap? word₄ middle)))⟩
  · rintro ⟨a, b, isFirst, isPast, words⟩
    obtain ⟨r₁, r₂, r₃, g, r₆, word₁, word₂, word₃, word₄, gap, nonempty, tail⟩ :=
      words.opening isFirst.numeral.ne_nil (head_numeral isFirst.numeral)
    have start := tail.head (by decide) (by rintro _ ⟨⟩; rfl)
    have low : index? (a ++ (g ++ r₆)) = some (e.first, g ++ r₆) :=
      index?_append isFirst (head?_gap gap nonempty)
    have space : gap? (g ++ r₆) = some r₆ :=
      gap?_eq_some_iff.mpr ⟨g, gap, nonempty, rfl, start⟩
    obtain ⟨r₇, word₅, last⟩ := tail.wordGap? isPast.numeral.ne_nil (head_numeral isPast.numeral)
    obtain rfl := last.eq
    have high := index?_append (r := []) isPast (by simp)
    rw [List.append_nil] at high
    unfold range?
    simp only [Option.bind_eq_bind, word₁, word₂, word₃, word₄, low, space, word₅, high,
      Option.bind_some]
    rfl

/-! ### What is written -/

theorem markedHex_hexLiteral (n : Nat) : MarkedHex (hexLiteral n) n :=
  .lower (numeral_hexadecimal n)

theorem isIndex_decimal (bounded : n < indexBound) : IsIndex (decimal n) n where
  numeral := numeral_decimal n
  bounded := bounded
  plain zero := by
    rcases Nat.eq_zero_or_pos n with rfl | positive
    · rfl
    · exact absurd rfl (head?_toDigits (b := 10) (by decide) (by decide) positive '0' zero)

theorem isAddress_fixed (small : n < wordBound) : IsAddress (hexLiteral n) ⟨n, none⟩ := by
  have form := IsAddress.fixed (g := []) (markedHex_hexLiteral n) small (by simp [Gap])
  rwa [List.append_nil] at form

theorem isAddress_stepped (small : n < wordBound) (small' : k < wordBound) :
    IsAddress (hexLiteral n ++ " + " ++ hexLiteral k ++ "*n") ⟨n, some k⟩ := by
  have one : Gap [' '] := by simp [Gap]
  have none : Gap [] := by simp [Gap]
  have form := IsAddress.stepped (markedHex_hexLiteral n) small (markedHex_hexLiteral k) small'
    one one none none none
  rw [List.append_assoc, List.append_assoc]
  exact form

theorem isRange_rangeText (low : n < indexBound) (high : m < indexBound) :
    IsRange (RegisterMap.rangeText ⟨n, m⟩) ⟨n, m⟩ := by
  have one : Gap [' '] := by simp [Gap]
  have some_gap : [' '] ≠ [] := by simp
  refine ⟨decimal n, decimal m, isIndex_decimal low, isIndex_decimal high, ?_⟩
  rw [RegisterMap.rangeText_eq]
  exact .more one some_gap (.more one some_gap (.more one some_gap (.more one some_gap
    (.more one some_gap (.more one some_gap (.last (decimal m)))))))

/-! ### Numbers that are too large -/

theorem address?_large_base (hex : MarkedHex h n) (large : wordBound ≤ n)
    (stop : ∀ c ∈ r.head?, isHexDigit c = false) : address? (h ++ r) = none := by
  unfold address?
  rw [hexNumber?_append hex stop, if_neg (Nat.not_lt.mpr large)]
  rfl

theorem increment?_large (hex : MarkedHex h n) (large : wordBound ≤ n) (gap₁ : Gap a)
    (gap₂ : Gap b) (stop : ∀ c ∈ r.head?, isHexDigit c = false) :
    increment? (a ++ '+' :: (b ++ (h ++ r))) = none := by
  obtain ⟨t, first⟩ := hex.head
  have plus : stripStart? "+" (skipGap (a ++ '+' :: (b ++ (h ++ r)))) = some (b ++ (h ++ r)) :=
    (stripStart?_skipGap_iff (by decide)).mpr ⟨a, gap₁, rfl⟩
  have start : skipGap (b ++ (h ++ r)) = h ++ r := skipGap_append gap₂ (by rw [first]; simp; decide)
  have letter : stripStart? "n" (h ++ r) = none := by
    rw [first]
    rfl
  unfold increment?
  rw [plus]
  simp only [Option.bind_eq_bind, Option.bind_some]
  rw [start, hexNumber?_append hex stop, if_neg (Nat.not_lt.mpr large), letter]
  rfl

theorem address?_large_step {base : Text} (isBase : MarkedHex base m) (hex : MarkedHex h n)
    (large : wordBound ≤ n) (gap₁ : Gap a) (gap₂ : Gap b)
    (stop : ∀ c ∈ r.head?, isHexDigit c = false) :
    address? (base ++ (a ++ '+' :: (b ++ (h ++ r)))) = none := by
  have ends := head?_gap_append (r := b ++ (h ++ r)) gap₁ (p := isHexDigit) (x := '+')
    (by decide) (by decide) (by decide)
  by_cases small : m < wordBound
  · have rest : ¬ Gap (a ++ '+' :: (b ++ (h ++ r))) := fun gap => by
      have plus := gap '+' (by simp)
      exact absurd plus (by decide)
    unfold address?
    rw [hexNumber?_append isBase ends, if_pos small]
    simp only [Option.bind_eq_bind, Option.bind_some, increment?_large hex large gap₁ gap₂ stop]
    rw [if_neg (by rwa [List.isEmpty_iff, skipGap_eq_nil_iff])]
  · exact address?_large_base isBase (Nat.not_lt.mp small) ends

/-- A numeral that is too large is not taken to its end. -/
theorem index?_large (numeral : Numeral 10 a n) (large : indexBound ≤ n)
    (stop : ∀ c ∈ r.head?, isDecDigit c = false) (found : index? (a ++ r) = some (k, s)) :
    ∃ c t, s = c :: t ∧ isDecDigit c = true := by
  have run : ∀ c ∈ a, isDecDigit c = true := numeral.all_digits (by decide)
  obtain ⟨x, front, rfl⟩ := List.exists_cons_of_ne_nil numeral.ne_nil
  unfold index? at found
  split at found
  · rename_i rest shape
    obtain ⟨rfl, same⟩ := List.cons.inj shape
    obtain ⟨-, rfl⟩ := Prod.mk.inj (Option.some.inj found)
    cases front with
    | nil =>
      have zero := numeral.unique (by decide) (.digit ⟨by decide, .inl rfl⟩ : Numeral 10 ['0'] 0)
      exact absurd large (by rw [zero]; decide)
    | cons c t => exact ⟨c, t ++ r, same.symm, run c (by simp)⟩
  · rw [takeWhile_append_stop run stop, readNat?_of_numeral (by decide) numeral,
      if_neg (Nat.not_lt.mpr large)] at found
    cases found

theorem range?_large_first {line : Text} (numeral : Numeral 10 a n) (large : indexBound ≤ n)
    (words : Gapped (rangeWords a b) (trimEnd line)) : range? line = none := by
  obtain ⟨r₁, r₂, r₃, g, r₆, word₁, word₂, word₃, word₄, gap, nonempty, -⟩ :=
    words.opening numeral.ne_nil (head_numeral numeral)
  unfold range?
  simp only [Option.bind_eq_bind, word₁, word₂, word₃, word₄, Option.bind_some]
  cases found : index? (a ++ (g ++ r₆)) with
  | none => rfl
  | some pair =>
    obtain ⟨c, t, rest, digit⟩ := index?_large numeral large (head?_gap gap nonempty) found
    have stuck : gap? pair.2 = none := by
      rw [rest, gap?, if_neg]
      rw [isGap_iff]
      rintro (rfl | rfl) <;> exact absurd digit (by decide)
    simp only [Option.bind_some, stuck]
    rfl

theorem range?_large_past {line : Text} (index : IsIndex a m) (numeral : Numeral 10 b n)
    (large : indexBound ≤ n) (words : Gapped (rangeWords a b) (trimEnd line)) :
    range? line = none := by
  rw [Option.eq_none_iff_forall_ne_some]
  intro e found
  obtain ⟨r₁, r₂, r₃, g, r₆, word₁, word₂, word₃, word₄, gap, nonempty, tail⟩ :=
    words.opening index.numeral.ne_nil (head_numeral index.numeral)
  have low : index? (a ++ (g ++ r₆)) = some (m, g ++ r₆) :=
    index?_append index (head?_gap gap nonempty)
  have space : gap? (g ++ r₆) = some r₆ :=
    gap?_eq_some_iff.mpr ⟨g, gap, nonempty, rfl, tail.head (by decide) (by rintro _ ⟨⟩; rfl)⟩
  obtain ⟨r₇, word₅, last⟩ := tail.wordGap? numeral.ne_nil (head_numeral numeral)
  obtain rfl := last.eq
  unfold range? at found
  simp only [Option.bind_eq_bind, word₁, word₂, word₃, word₄, low, space, word₅, Option.bind_some,
    Option.bind_eq_some_iff, Prod.exists] at found
  obtain ⟨past, rest, high, ends⟩ := found
  rw [← List.append_nil r₇] at high
  obtain ⟨c, t, rfl, -⟩ := index?_large numeral large (by simp) high
  cases ends

/-- The lines of addresses and ranges are accepted exactly: what is read is what is written, and a
number that is too large is refused wherever it stands. -/
theorem structuredLines_exact :
    (∀ line e, address? line = some e ↔ IsAddress line e) ∧
    (∀ line e, range? line = some e ↔ IsRange (trimEnd line) e) ∧
    (∀ base step, base < wordBound → step < wordBound →
      address? (hexLiteral base) = some ⟨base, none⟩ ∧
      address? (hexLiteral base ++ " + " ++ hexLiteral step ++ "*n") = some ⟨base, some step⟩) ∧
    (∀ first past, first < indexBound → past < indexBound →
      range? (RegisterMap.rangeText ⟨first, past⟩) = some ⟨first, past⟩) ∧
    (∀ h n r, MarkedHex h n → wordBound ≤ n → (∀ c ∈ r.head?, isHexDigit c = false) →
      address? (h ++ r) = none ∧
      ∀ base m g₁ g₂, MarkedHex base m → Gap g₁ → Gap g₂ →
        address? (base ++ (g₁ ++ '+' :: (g₂ ++ (h ++ r)))) = none) ∧
    (∀ a n line, Numeral 10 a n → indexBound ≤ n →
      (∀ b, Gapped (rangeWords a b) (trimEnd line) → range? line = none) ∧
      (∀ b m, IsIndex b m → Gapped (rangeWords b a) (trimEnd line) → range? line = none)) := by
  refine ⟨fun line e => address?_eq_some_iff, fun line e => range?_eq_some_iff, ?_, ?_, ?_, ?_⟩
  · intro base step small small'
    exact ⟨address?_eq_some_iff.mpr (isAddress_fixed small),
      address?_eq_some_iff.mpr (isAddress_stepped small small')⟩
  · intro first past low high
    rw [range?_eq_some_iff, RegisterMap.trimEnd_rangeText]
    exact isRange_rangeText low high
  · intro h n r hex large stop
    exact ⟨address?_large_base hex large stop, fun base m g₁ g₂ isBase gap₁ gap₂ =>
      address?_large_step isBase hex large gap₁ gap₂ stop⟩
  · intro a n line numeral large
    exact ⟨fun b words => range?_large_first numeral large words,
      fun b m index words => range?_large_past index numeral large words⟩

theorem structuredLines_exact_largest :
    let last := Nat.pow 2 64 - 1
    (last < wordBound ∧ address? (hexLiteral last) = some ⟨last, none⟩ ∧
      address? (hexLiteral last ++ " + " ++ hexLiteral last ++ "*n") = some ⟨last, some last⟩) ∧
    (4294967295 < indexBound ∧ range? (RegisterMap.rangeText ⟨0, 4294967295⟩) =
      some ⟨0, 4294967295⟩) ∧
    (MarkedHex "0x10000000000000000" wordBound ∧ address? "0x10000000000000000" = none ∧
      address? "0x4 + 0x10000000000000000" = none) ∧
    (Numeral 10 "4294967296" indexBound ∧
      Gapped (rangeWords "4294967296" "8") (trimEnd "WHERE n IS FROM 4294967296 TO 8") ∧
      range? "WHERE n IS FROM 4294967296 TO 8" = none) := by
  intro last
  obtain ⟨-, -, written, ranges, large, largeIndex⟩ := structuredLines_exact
  have bounded : last < wordBound := by decide
  have hex : MarkedHex "0x10000000000000000" wordBound :=
    .lower (numeral_of_readDigits? (by decide) (by decide) (by decide))
  have four : MarkedHex "0x4" 4 := .lower (.digit ⟨by decide, .inl rfl⟩)
  have numeral : Numeral 10 "4294967296" indexBound :=
    numeral_of_readDigits? (by decide) (by decide) (by decide)
  have one : Gap [' '] := by simp [Gap]
  have words : Gapped (rangeWords "4294967296" "8") (trimEnd "WHERE n IS FROM 4294967296 TO 8") :=
    .more one (by simp) (.more one (by simp) (.more one (by simp) (.more one (by simp)
      (.more one (by simp) (.more one (by simp) (.last "8"))))))
  obtain ⟨base, step⟩ := large _ _ [] hex (Nat.le_refl _) (by simp)
  exact ⟨⟨bounded, written last last bounded bounded⟩,
    ⟨by decide, ranges 0 4294967295 (by decide) (by decide)⟩,
    ⟨hex, base, step _ 4 [' '] [' '] four one one⟩,
    ⟨numeral, words, (largeIndex _ _ _ numeral (Nat.le_refl _)).1 "8" words⟩⟩

end Gateware.Grammar
