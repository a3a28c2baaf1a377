import Gateware.Proofs.RegisterMap.Conservation
import Gateware.Proofs.RegisterMap.StructuredLines
import Gateware.RegisterMap.Package

/-!
# Reset values that do not fit

A hexadecimal reset value is told to overflow exactly when it does not fit in the bits of its
field, whatever the order of the two bounds (`resetOverflow_exact`). It is kept either way, and
printed with the number that was written.
-/

namespace Gateware.RegisterMap

open Text

/-! ### Field lines -/

/-- Bits between brackets and how many they are: one for each index, or a span between two bounds
in either order. -/
inductive KnownBits : Text → Bits → Nat → Prop
  | indexed {s : Text} : Padded "n" s → KnownBits s .indexed 1
  | span {s t high low : Text} {h l : Nat} : Count high h → Padded high s → h < indexBound →
      Count low l → Padded low t → l < indexBound → max h l - min h l + 1 < indexBound →
      KnownBits (s ++ ':' :: t) (.span (.num (max h l)) (.num (min h l))) (max h l - min h l + 1)

/-- Hexadecimal digits, with a mark in either case or without. -/
inductive HexReset : Text → Nat → Prop
  | bare {s : Text} {v : Nat} : Numeral 16 s v → HexReset s v
  | marked {s : Text} {v : Nat} : Grammar.MarkedHex s v → HexReset s v

/-- Bits in brackets and, after a space or a tab, a reset value. -/
inductive ResetLine (bits reset : Text) : Text → Prop
  | mk {c : Char} {r : Text} : c = ' ' ∨ c = '\t' → Padded reset r →
      ResetLine bits reset ('[' :: (bits ++ ']' :: c :: r))

/-- The lines of a field after its first: a range, which must be of use where the field has a bit
for each index, a name, an access tag and a description. -/
inductive CompleteField (bits : Bits) : List DescriptionLine → Prop
  | plain {name tag : Text} {description : List DescriptionLine} : bits ≠ .indexed →
      CompleteField bits (.text name :: .text tag :: description)
  | ranged {range name tag : Text} {description : List DescriptionLine} :
      (bits = .indexed → ∃ r, Grammar.range? range = some r ∧ r.first < r.past) →
      CompleteField bits (.range range :: .text name :: .text tag :: description)

/-- A field block whose first line is `line`, and what stands after its end. -/
def CompleteBlock (line : Text) (bits : Bits) (own : List Text) : Prop :=
  ∃ rest after, tokens own = .text line :: (rest ++ .endField :: after) ∧
    (∀ l ∈ rest, l.isKeyword = false) ∧ CompleteField bits rest

variable {s spec reset line register : Text} {bits : Bits} {w v : Nat}

theorem notBlank_digit {base : Nat} (small : base ≤ 16) {c : Char}
    (h : (digitValue? base c).isSome = true) : isBlank c = false := by
  have plain := forall_isDigit small (p := fun c => !isBlank c) (by decide) h
  simpa using plain

theorem bare_count {n : Nat} (count : Count s n) : Bare isBlank s ∧ s ≠ [] := by
  constructor
  · refine bare_of_forall fun c hc => ?_
    rcases count.mem hc with rfl | digit
    · decide
    · exact notBlank_digit (by decide) digit
  · cases count with
    | plain numeral => exact numeral.ne_nil
    | signed => exact List.cons_ne_nil _ _

theorem not_mem_padded {c : Char} {t : Text} (filled : isBlank c = false) (absent : c ∉ s)
    (padded : Padded s t) : c ∉ t := by
  cases padded with
  | mk before after =>
    simp only [List.mem_append, not_or]
    refine ⟨fun mem => ?_, absent, fun mem => ?_⟩
    · rw [before c mem] at filled
      cases filled
    · rw [after c mem] at filled
      cases filled

theorem not_mem_count {c : Char} {n : Nat} (sign : c ≠ '+') (other : isDecDigit c = false)
    (count : Count s n) : c ∉ s := by
  intro mem
  rcases count.mem mem with rfl | digit
  · exact sign rfl
  · rw [other] at digit
    cases digit

theorem KnownBits.closed (known : KnownBits spec bits w) : ']' ∉ spec := by
  cases known with
  | indexed padded => exact not_mem_padded (by decide) (by decide) padded
  | span high padHigh _ low padLow =>
    have apart {s t : Text} {n : Nat} (count : Count s n) (padded : Padded s t) : ']' ∉ t :=
      not_mem_padded (by decide) (not_mem_count (by decide) (by decide) count) padded
    simp [apart high padHigh, apart low padLow]

theorem KnownBits.width? (known : KnownBits spec bits w) : bits.width? = some w := by
  cases known with
  | indexed => rfl
  | span _ _ _ _ _ _ fits => exact congrArg some (Nat.mod_eq_of_lt fits)

theorem bound_of_padded {n : Nat} {t : Text} (count : Count s n) (padded : Padded s t)
    (small : n < indexBound) : Grammar.bound t = .num n := by
  unfold Grammar.bound
  simp only [padded.trim (bare_count count).1 (bare_count count).2, readCount?_of_count count small]

/-- What trimming leaves of two bounds is still cut at the colon, and each is padded at most. -/
theorem trim_span {s t high low : Text} {h l : Nat} (isHigh : Count high h)
    (padHigh : Padded high s) (isLow : Count low l) (padLow : Padded low t) :
    ∃ s' t', trim (s ++ ':' :: t) = s' ++ ':' :: t' ∧ Padded high s' ∧ Padded low t' := by
  obtain ⟨bareHigh, filledHigh⟩ := bare_count isHigh
  obtain ⟨bareLow, filledLow⟩ := bare_count isLow
  cases padHigh with
  | @mk a b before between =>
    cases padLow with
    | @mk c d between' after =>
      have core := bareHigh.around bareLow filledHigh filledLow (b ++ ':' :: c)
      have split : a ++ (high ++ b) ++ ':' :: (c ++ (low ++ d)) =
          a ++ (high ++ (b ++ ':' :: c ++ low) ++ d) := by simp
      refine ⟨high ++ b, c ++ low, ?_, ?_, ?_⟩
      · rw [split, trim, trimBy_append core (by simp [filledHigh]) before after]
        simp
      · exact .mk (a := []) (by simp) between
      · have padded : Padded low (c ++ (low ++ [])) := .mk between' (by simp)
        rwa [List.append_nil] at padded

theorem readBits_known (known : KnownBits spec bits w) (register : Text) :
    (readBits (trim spec) register).1 = bits := by
  cases known with
  | indexed padded =>
    rw [padded.trim ⟨by rintro _ ⟨⟩; rfl, by rintro _ ⟨⟩; rfl⟩ (by decide)]
    rfl
  | @span s t high low h l isHigh padHigh smallHigh isLow padLow smallLow fits =>
    obtain ⟨s', t', cut, padHigh, padLow⟩ := trim_span isHigh padHigh isLow padLow
    have colon : ':' ∉ s' :=
      not_mem_padded (by decide) (not_mem_count (by decide) (by decide) isHigh) padHigh
    have notIndex : s' ++ ':' :: t' ≠ String.toList "n" := by
      intro e
      have mem : ':' ∈ s' ++ ':' :: t' := by simp
      rw [e] at mem
      exact absurd mem (by decide)
    unfold readBits
    rw [cut, if_neg notIndex, show (":" : Text) = [':'] from rfl, cut?_append colon]
    simp only [Option.getD_some, bound_of_padded isHigh padHigh smallHigh,
      bound_of_padded isLow padLow smallLow]
    split
    · rename_i inverted
      rw [Nat.max_eq_right (Nat.le_of_lt inverted), Nat.min_eq_left (Nat.le_of_lt inverted)]
    · rename_i ordered
      rw [Nat.max_eq_left (Nat.not_lt.mp ordered), Nat.min_eq_right (Nat.not_lt.mp ordered)]

/-! ### The reset value -/

theorem hexMark?_eq_none (numeral : Numeral 16 s v) : Grammar.hexMark? s = none := by
  have mark (x : Char) (other : isHexDigit x = false) : stripStart? ['0', x] s = none := by
    rw [stripStart?_eq_none_iff]
    intro front
    have digit := numeral.all_digits (by decide) x (front.subset (by simp))
    exact Bool.false_ne_true (other.symm.trans digit)
  unfold Grammar.hexMark?
  rw [show ("0x" : Text) = ['0', 'x'] from rfl, show ("0X" : Text) = ['0', 'X'] from rfl,
    mark _ (by decide), mark _ (by decide)]
  rfl

theorem hexLiteral?_of_hexReset (hex : HexReset reset v) (small : v < wordBound) :
    Grammar.hexLiteral? reset = some v := by
  unfold Grammar.hexLiteral?
  cases hex with
  | bare numeral =>
    rw [hexMark?_eq_none numeral]
    exact (readNat?_eq_some_iff (by decide)).mpr ⟨numeral, small⟩
  | marked marked =>
    obtain ⟨digits, numeral, mark⟩ := marked.hexMark? []
    rw [List.append_nil, List.append_nil] at mark
    rw [mark]
    exact (readNat?_eq_some_iff (by decide)).mpr ⟨numeral, small⟩

theorem bare_hexReset (hex : HexReset reset v) : Bare isBlank reset ∧ reset ≠ [] := by
  have mark {x : Char} (other : isBlank x = false) : ∀ c ∈ ['0', x], isBlank c = false :=
    List.forall_mem_cons.mpr ⟨by decide, List.forall_mem_singleton.mpr other⟩
  have digits {s : Text} (numeral : Numeral 16 s v) : ∀ c ∈ s, isBlank c = false := by
    intro c hc
    exact notBlank_digit (by decide) (numeral.all_digits (by decide) c hc)
  cases hex with
  | bare numeral => exact ⟨bare_of_forall (digits numeral), numeral.ne_nil⟩
  | marked marked =>
    cases marked with
    | lower numeral =>
      refine ⟨bare_of_forall (List.forall_mem_append.mpr ⟨?_, digits numeral⟩), by simp⟩
      exact mark (by decide)
    | upper numeral =>
      refine ⟨bare_of_forall (List.forall_mem_append.mpr ⟨?_, digits numeral⟩), by simp⟩
      exact mark (by decide)

/-- A value is told to overflow when its binary digits are more than there are bits. -/
theorem readReset_known (hex : HexReset reset v) (small : v < wordBound)
    (width : bits.width? = some w) (register : Text) :
    readReset reset bits register =
      (.hex v, if Nat.pow 2 w ≤ v then [.resetOverflow reset bits register] else []) := by
  have fits : (bits.width?.any fun w => decide (w < bitLength v)) = decide (Nat.pow 2 w ≤ v) := by
    rw [width, Option.any_some, decide_eq_decide, ← Nat.not_le, bitLength_le_iff, Nat.not_lt]
  unfold readReset
  rw [hexLiteral?_of_hexReset hex small]
  simp only [fits, decide_eq_true_eq]

theorem fieldSpec?_of_resetLine (written : ResetLine spec reset line) (closed : ']' ∉ spec)
    (bare : Bare isBlank reset) (nonempty : reset ≠ []) :
    Grammar.fieldSpec? line = some ⟨trim spec, some reset⟩ := by
  cases written with
  | @mk c r gap padded =>
    have start : stripStart? "[" ('[' :: (spec ++ ']' :: c :: r)) = some (spec ++ ']' :: c :: r) :=
      stripStart?_append ['['] _
    have behind : Grammar.gap? (c :: r) = some (Grammar.skipGap r) :=
      if_pos (Grammar.isGap_iff.mpr gap)
    have blank : ∀ c, Grammar.isGap c = true → isBlank c = true := by
      intro c gap
      rcases Grammar.isGap_iff.mp gap with rfl | rfl <;> decide
    have value : trim (Grammar.skipGap r) = reset := by
      rw [← padded.trim bare nonempty]
      exact congrArg (trimEndBy isBlank) (dropWhile_dropWhile blank r)
    unfold Grammar.fieldSpec?
    rw [start]
    simp only [Option.bind_eq_bind, Option.bind_some]
    rw [show ("]" : Text) = [']'] from rfl, cut?_append closed]
    simp only [Option.bind_some, behind, value]
    simp [nonempty]

/-! ### The block of the field -/

def ParseWarning.isOverflow : ParseWarning → Bool
  | .resetOverflow .. => true
  | _ => false

/-- Nothing among the warnings is about an overflow. -/
def Calm (ws : List ParseWarning) : Prop := ws.filter ParseWarning.isOverflow = []

theorem Calm.nil : Calm [] := rfl

theorem Calm.single {w : ParseWarning} (other : w.isOverflow = false) : Calm [w] :=
  List.filter_cons_of_neg (by simp [other])

theorem Calm.append {a b : List ParseWarning} (first : Calm a) (second : Calm b) :
    Calm (a ++ b) := by
  unfold Calm at *
  rw [List.filter_append, first, second]
  rfl

theorem calm_ite (p : Prop) [Decidable p] {a b : List ParseWarning} (first : Calm a)
    (second : Calm b) : Calm (if p then a else b) := by
  split <;> assumption

/-- What is told after calm warnings of a value that overflows where `p` holds. -/
theorem Calm.filter_append {ws : List ParseWarning} (calm : Calm ws) (p : Prop) [Decidable p]
    (reset : Text) (bits : Bits) (register : Text) :
    (ws ++ if p then [ParseWarning.resetOverflow reset bits register] else []).filter
        ParseWarning.isOverflow =
      if p then [.resetOverflow reset bits register] else [] := by
  rw [List.filter_append, calm]
  split <;> rfl

theorem calm_readBits (spec register : Text) : Calm (readBits spec register).2 := by
  unfold readBits
  repeat' split
  all_goals rfl

theorem calm_readRange (range context : Text) : Calm (readRange range context).2 := by
  unfold readRange
  repeat' split
  all_goals rfl

theorem readRange_usable {range : Text} {r : IndexRange} (found : Grammar.range? range = some r)
    (filled : r.first < r.past) (context : Text) : readRange range context = (some r, []) := by
  unfold readRange
  rw [found]
  simp only [IndexRange.isEmpty_eq_false_iff.mpr filled]
  rfl

/-- A complete field is read with the bits and the value of its first line. -/
theorem readConcreteField_complete (written : ResetLine spec reset line)
    (known : KnownBits spec bits w) (hex : HexReset reset v) (small : v < wordBound)
    {rest : List DescriptionLine} (complete : CompleteField bits rest) (register : Text) :
    ∃ field, (readConcreteField register line rest).fields = [.concrete field] ∧
      field.bits = bits ∧ field.reset = some (.hex v) ∧
      (readConcreteField register line rest).warnings.filter ParseWarning.isOverflow =
        if Nat.pow 2 w ≤ v then [.resetOverflow reset bits register] else [] := by
  obtain ⟨bare, nonempty⟩ := bare_hexReset hex
  have first := fieldSpec?_of_resetLine written known.closed bare nonempty
  have value := readReset_known hex small known.width? register
  have calm := calm_readBits (trim spec) register
  have kept := readBits_known known register
  rcases read : readBits (trim spec) register with ⟨bits', told⟩
  rw [read] at calm kept
  obtain rfl : bits' = bits := kept
  unfold readConcreteField
  rw [first]
  simp only [read]
  cases complete with
  | @plain name tag description spanned =>
    cases bits' with
    | indexed => exact absurd rfl spanned
    | span high low =>
      simp only [takeRange, Option.map_some, value]
      refine ⟨_, rfl, rfl, rfl, Calm.filter_append ?_ _ _ _ _⟩
      exact ((calm.append .nil).append (calm_ite _ (.single rfl) .nil)).append
        (calm_ite _ .nil (.single rfl))
  | @ranged range name tag description usable =>
    cases bits' with
    | indexed =>
      obtain ⟨r, found, filled⟩ := usable rfl
      have part := readRange_usable found filled register
      simp only [takeRange, part, Option.map_some, value]
      refine ⟨_, rfl, rfl, rfl, Calm.filter_append ?_ _ _ _ _⟩
      exact ((calm.append .nil).append (calm_ite _ (.single rfl) .nil)).append
        (calm_ite _ .nil (.single rfl))
    | span high low =>
      have range := calm_readRange range register
      simp only [takeRange, Option.map_some, value]
      refine ⟨_, rfl, rfl, rfl, Calm.filter_append ?_ _ _ _ _⟩
      exact ((calm.append range).append (calm_ite _ (.single rfl) .nil)).append
        (calm_ite _ .nil (.single rfl))

/-- So is a block. -/
theorem readField_complete (written : ResetLine spec reset line)
    (known : KnownBits spec bits w) (hex : HexReset reset v) (small : v < wordBound)
    {own : List Text} (complete : CompleteBlock line bits own) (register : Text) :
    ∃ field, (readField register (tokens own)).fields = [.concrete field] ∧
      field.bits = bits ∧ field.reset = some (.hex v) ∧
      (readField register (tokens own)).warnings.filter ParseWarning.isOverflow =
        if Nat.pow 2 w ≤ v then [.resetOverflow reset bits register] else [] := by
  obtain ⟨rest, after, lines, content, complete⟩ := complete
  have closed : closedBy? .endField (tokens own) = some (.text line :: rest) := by
    rw [lines]
    exact closedBy?_append .endField rfl (List.forall_mem_cons.mpr ⟨rfl, content⟩)
  have opens : startsWith "[" line = true := by
    cases written
    rfl
  have body : readField register (tokens own) = readConcreteField register line rest := by
    unfold readField
    rw [closed]
    simp only [readFieldBody, opens, if_true]
  rw [body]
  exact readConcreteField_complete written known hex small complete register

/-- A hexadecimal reset value of a field block after a register is stored and printed as it is
written, and told to overflow exactly when it is two to the number of bits or more. -/
theorem resetOverflow_exact {pre own : List Text} (inside : titleLine ∉ pre)
    (following : RegisterOpen pre) (apart : Undivided own) (written : ResetLine spec reset line)
    (known : KnownBits spec bits w) (hex : HexReset reset v) (small : v < wordBound)
    (complete : CompleteBlock line bits own) :
    ∃ front r field warnings,
      registersAfter pre = front ++ [r] ∧
      registersAfter (pre ++ fieldLine :: own) =
        front ++ [Cursor.pushFields [.concrete field] r] ∧
      warningsAfter (pre ++ fieldLine :: own) = warningsAfter pre ++ warnings ∧
      warnings.filter ParseWarning.isOverflow =
        (if Nat.pow 2 w ≤ v then [.resetOverflow reset bits r.name] else []) ∧
      (64 ≤ w ∨ v = 0 → warnings.filter ParseWarning.isOverflow = []) ∧
      field.bits = bits ∧ field.reset = some (.hex v) ∧
      ∃ digits, resetText field.reset = "'h" ++ digits ∧ Numeral 16 digits v := by
  obtain ⟨h, formed⟩ := following.formed inside
  obtain ⟨front, r, before, after, told⟩ := field_opened inside formed apart following
  obtain ⟨field, fields, stored, value, overflow⟩ :=
    readField_complete written known hex small complete r.name
  rw [fields] at after
  refine ⟨front, r, field, _, before, after, told, overflow, ?_, stored, value, ?_⟩
  · intro fits
    have below : v < Nat.pow 2 w := by
      rcases fits with wide | rfl
      · exact small.trans_le (Nat.pow_le_pow_right (by decide) wide)
      · exact Nat.two_pow_pos w
    rw [overflow, if_neg (Nat.not_le.mpr below)]
  · rw [value]
    exact ⟨hexadecimal v, rfl, numeral_hexadecimal v⟩

/-- Sixteen does not fit in the four bits of a span whose bounds stand in the wrong order. -/
theorem resetOverflow_exact_inverted :
    let pre : List Text := ["Timers", "timer", "REG", "0x10", "CTRL", "ENDREG"]
    let own : List Text := ["[0:3] 0x10", "MODE", "RW", "ENDFIELD"]
    ∃ (r : Register) (warnings : List ParseWarning),
      warningsAfter (pre ++ fieldLine :: own) = warningsAfter pre ++ warnings ∧
      warnings.filter ParseWarning.isOverflow =
        [.resetOverflow "0x10" (.span (.num 3) (.num 0)) r.name] := by
  intro pre own
  have following : RegisterOpen pre :=
    ⟨["Timers", "timer"], ["0x10", "CTRL", "ENDREG"], rfl, by decide, by decide +kernel⟩
  have unpadded (s : Text) : Padded s (s ++ []) := .mk (a := []) (by simp) (by simp)
  have digit (c : Char) (d : Nat) (isDigit : IsDigit 10 c d) : Count [c] d :=
    .plain (.digit isDigit)
  have known : KnownBits "0:3" (.span (.num 3) (.num 0)) 4 :=
    .span (digit '0' 0 ⟨by decide, .inl rfl⟩) (unpadded _) (by decide)
      (digit '3' 3 ⟨by decide, .inl rfl⟩) (unpadded _) (by decide) (by decide)
  have sixteen : Numeral 16 "10" 16 := numeral_of_readDigits? (by decide) (by decide) (by decide)
  have hex : HexReset "0x10" 16 := .marked (.lower sixteen)
  have written : ResetLine "0:3" "0x10" "[0:3] 0x10" := .mk (.inl rfl) (unpadded _)
  have complete : CompleteBlock "[0:3] 0x10" (.span (.num 3) (.num 0)) own :=
    ⟨[.text "MODE", .text "RW"], [], by decide, by decide, .plain (by decide)⟩
  obtain ⟨-, r, -, warnings, -, -, told, overflow, -⟩ :=
    resetOverflow_exact (by decide) following ⟨by decide, by decide, by decide⟩ written known hex
      (by decide) complete
  exact ⟨r, warnings, told, overflow⟩

end Gateware.RegisterMap
