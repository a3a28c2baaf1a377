import Gateware.Proofs.RegisterMap.Accounts
import Mathlib.Data.List.TakeWhile

/-!
# No block is lost without a trace

Every title line gives a group or a warning, and under a well-formed title every register line
gives a register or a warning that it is skipped, and every field block with any content adds fields
to the register before it or is warned about (`parse_accounts`). What one block does at its place is
said by `RegisterTaken` and `FieldTaken`.
-/

namespace Gateware.RegisterMap

open Text Cursor

/-! ### Titles -/

theorem count_titleLine (lines : List Text) :
    lines.count titleLine = (titleBlocks lines).2.length := by
  induction lines with
  | nil => rfl
  | cons l ls ih =>
    by_cases title : l = titleLine
    · simp [titleBlocks, title, ih]
    · simp [titleBlocks, title, ih, List.count_cons_of_ne title]

/-- A heading or one warning that it is malformed, and nothing else about titles or registers. -/
theorem account_readHeading (ls : List DescriptionLine) :
    (readHeading ls).heading.toList.length + (readHeading ls).warnings.count .malformedTitle = 1 ∧
      (readHeading ls).warnings.countP ParseWarning.isDuplicateTitle = 0 ∧
      (readHeading ls).warnings.countP ParseWarning.skipsRegister = 0 := by
  unfold readHeading
  simp only
  generalize (ls.takeWhile DescriptionLine.isUses).length -
    ((ls.takeWhile DescriptionLine.isUses).filterMap usedGroup?).length = n
  split <;> simp [List.count_replicate, List.countP_replicate, ParseWarning.isDuplicateTitle,
    ParseWarning.skipsRegister]

theorem count_of_apart {ws : List ParseWarning} (apart : ∀ w ∈ ws, w.aboutTitle = false) :
    ws.count .malformedTitle = 0 ∧ ws.countP ParseWarning.isDuplicateTitle = 0 := by
  constructor
  · rw [List.count_eq_zero]
    intro mem
    cases apart _ mem
  · rw [List.countP_eq_zero]
    intro w hw duplicate
    have other := apart w hw
    simp [ParseWarning.aboutTitle, duplicate] at other

theorem account_block {body : List Text} (inside : titleLine ∉ body) :
    (parse (titleLine :: body)).1.groups.length +
        (parse (titleLine :: body)).2.count .malformedTitle = 1 ∧
      (parse (titleLine :: body)).2.countP ParseWarning.isDuplicateTitle = 0 := by
  obtain ⟨once, single, -⟩ := account_readHeading (tokens body)
  rw [parse_block inside, readGroup_eq]
  cases formed : (readHeading (tokens body)).heading with
  | none =>
    rw [formed] at once
    exact ⟨once, single⟩
  | some h =>
    have apart := (account_readGroupBody h.title h.name h.uses (readHeading (tokens body)).rest).2
    rw [readGroupBody_eq h] at apart
    obtain ⟨formedLater, singleLater⟩ := count_of_apart apart
    rw [formed] at once
    simp only [List.count_append, List.countP_append, formedLater, singleLater]
    exact ⟨once, single⟩

theorem Joins.account {blocks : List (RegisterMap × List ParseWarning)} {groups : List Group}
    {warnings : List ParseWarning} (h : Joins blocks groups warnings)
    (each : ∀ b ∈ blocks, b.1.groups.length + b.2.count .malformedTitle = 1 ∧
      b.2.countP ParseWarning.isDuplicateTitle = 0) :
    blocks.length = groups.length + warnings.count .malformedTitle +
      warnings.countP ParseWarning.isDuplicateTitle := by
  induction h with
  | nil => rfl
  | none before gives ih =>
    have earlier := ih fun b hb => each b (List.mem_append_left _ hb)
    obtain ⟨once, single⟩ := each _ (List.mem_append_right _ List.mem_cons_self)
    simp only [gives, List.length_nil] at once single
    simp only [List.length_append, List.count_append, List.countP_append, List.length_singleton]
    omega
  | replaces before gives same ih =>
    have earlier := ih fun b hb => each b (List.mem_append_left _ hb)
    obtain ⟨once, single⟩ := each _ (List.mem_append_right _ List.mem_cons_self)
    simp only [gives, List.length_singleton] at once single
    simp only [List.length_append, List.length_cons] at earlier
    simp only [List.length_append, List.length_cons, List.count_append, List.countP_append,
      List.length_nil, ParseWarning.isDuplicateTitle, List.count_singleton, List.countP_singleton]
    simp only [reduceCtorEq, beq_iff_eq, if_true, if_false]
    omega
  | appends before gives new ih =>
    have earlier := ih fun b hb => each b (List.mem_append_left _ hb)
    obtain ⟨once, single⟩ := each _ (List.mem_append_right _ List.mem_cons_self)
    simp only [gives, List.length_singleton] at once single
    simp only [List.length_append, List.count_append, List.countP_append, List.length_singleton]
    omega

/-! ### The lines of one title -/

/-- The registers that the lines after a title line give. -/
def registersAfter (body : List Text) : List Register :=
  (parse (titleLine :: body)).1.groups.flatMap Group.registers

def warningsAfter (body : List Text) : List ParseWarning :=
  (parse (titleLine :: body)).2

/-- There is a register line among the lines, and the last one gave a register. -/
def RegisterOpen (pre : List Text) : Prop :=
  ∃ before own, pre = before ++ regLine :: own ∧ regLine ∉ own ∧
    (registersAfter pre).length = (registersAfter before).length + 1

/-- A register block adds the register that it gives alone at the end, or one warning that it is
skipped. -/
structure RegisterTaken (pre own : List Text) : Prop where
  registers : registersAfter (pre ++ regLine :: own) =
    registersAfter pre ++ (readRegister (tokens own)).register.toList
  warnings : warningsAfter (pre ++ regLine :: own) =
    warningsAfter pre ++ (readRegister (tokens own)).warnings
  once : (readRegister (tokens own)).register.toList.length +
    (readRegister (tokens own)).warnings.countP ParseWarning.skipsRegister = 1

/-- The lines of a field block, up to the next keyword. -/
def linesOfField (own : List Text) : List Text :=
  own.takeWhile fun l => !(DescriptionLine.ofText l).isKeyword

/-- A field block with any content adds fields to the register before it, which is the last, or adds
none and is warned about; after a register that was skipped it adds nothing. -/
structure FieldTaken (pre own : List Text) : Prop where
  kept : RegisterOpen pre → ∃ front r fields warnings,
    registersAfter pre = front ++ [r] ∧
    registersAfter (pre ++ fieldLine :: own) = front ++ [pushFields fields r] ∧
    warningsAfter (pre ++ fieldLine :: own) = warningsAfter pre ++ warnings ∧
    ((∃ l ∈ linesOfField own, l ≠ []) → fields ≠ [] ∨ fields = [] ∧ warnings ≠ [])
  skipped : ¬RegisterOpen pre →
    registersAfter (pre ++ fieldLine :: own) = registersAfter pre

theorem tokens_linesOfField (own : List Text) :
    tokens (linesOfField own) = (tokens own).takeWhile fun l => !l.isKeyword := by
  unfold linesOfField
  induction own with
  | nil => rfl
  | cons l own ih =>
    by_cases empty : l = []
    · subst empty
      exact ih
    · have first : tokens (l :: own) = DescriptionLine.ofText l :: tokens own := by
        simp [tokens, empty]
      cases keyword : (DescriptionLine.ofText l).isKeyword with
      | true =>
        rw [List.takeWhile_cons_of_neg (by simp [keyword]), first,
          List.takeWhile_cons_of_neg (by simp [keyword])]
        rfl
      | false =>
        rw [List.takeWhile_cons_of_pos (by simp [keyword]), first,
          List.takeWhile_cons_of_pos (by simp [keyword]), ← ih]
        simp [tokens, empty]

theorem tokens_ne_nil {ls : List Text} (filled : ∃ l ∈ ls, l ≠ []) : tokens ls ≠ [] := by
  obtain ⟨l, hl, some⟩ := filled
  have mem : l ∈ ls.filter fun l => !l.isEmpty := List.mem_filter.mpr ⟨hl, by simpa using some⟩
  simpa [tokens] using List.ne_nil_of_mem mem

theorem count_tokens {k : DescriptionLine} (keyword : k.isKeyword = true) (ls : List Text) :
    (tokens ls).count k = ls.count k.written := by
  have filled : k.written ≠ [] := by cases k <;> first | decide | cases keyword
  induction ls with
  | nil => rfl
  | cons l ls ih =>
    by_cases empty : l = []
    · subst empty
      rw [List.count_cons_of_ne filled.symm, ← ih]
      rfl
    · have first : tokens (l :: ls) = DescriptionLine.ofText l :: tokens ls := by
        simp [tokens, empty]
      rw [first, List.count_cons, List.count_cons, ih]
      simp [ofText_eq_iff keyword]

/-- A heading takes no keyword. -/
theorem count_rest {k : DescriptionLine} (keyword : k.isKeyword = true) {ls : List DescriptionLine}
    (formed : (readHeading ls).heading ≠ none) : (readHeading ls).rest.count k = ls.count k := by
  have header : (ls.takeWhile DescriptionLine.isUses).count k = 0 := by
    rw [List.count_eq_zero]
    intro mem
    have uses := List.mem_takeWhile_imp mem
    cases k <;> simp [DescriptionLine.isUses, DescriptionLine.isKeyword] at uses keyword
  have split := congrArg (List.count k)
    (List.takeWhile_append_dropWhile (p := DescriptionLine.isUses) (l := ls))
  rw [List.count_append, header, Nat.zero_add] at split
  unfold readHeading at formed ⊢
  simp only at formed ⊢
  revert formed
  rw [← split]
  split
  · rename_i title name rest e
    intro _
    rw [e, List.count_cons_of_ne, List.count_cons_of_ne]
    all_goals
      rintro rfl
      cases keyword
  · simp
  · simp

theorem Undivided.title_not_mem {pre own : List Text} (apart : Undivided own)
    (inside : titleLine ∉ pre) {l : Text} (other : l ≠ titleLine) :
    titleLine ∉ pre ++ l :: own := by
  rw [List.mem_append, List.mem_cons]
  rintro (before | same | within)
  · exact inside before
  · exact other same.symm
  · exact apart.title within

section Title

variable {h : Heading} {pre : List Text}

theorem registersAfter_eq (inside : titleLine ∉ pre)
    (formed : (readHeading (tokens pre)).heading = some h) :
    registersAfter pre = (progress h pre).allRegisters := by
  unfold registersAfter
  rw [parse_title inside formed]
  simp [Progress.group]

theorem warningsAfter_eq (inside : titleLine ∉ pre)
    (formed : (readHeading (tokens pre)).heading = some h) :
    warningsAfter pre = (readHeading (tokens pre)).warnings ++ (progress h pre).warnings := by
  unfold warningsAfter
  rw [parse_title inside formed]

theorem registers_openRegister (p : Progress) (block : Option (List DescriptionLine)) :
    (p.openRegister block).registers = p.allRegisters := by
  cases block <;> rfl

theorem length_allRegisters (p : Progress) :
    p.allRegisters.length = p.registers.length + p.pending.register?.toList.length := by
  rw [Progress.allRegisters, List.length_append]

/-- After its last register line a title has one register more exactly when one is open. -/
theorem length_registersAfter (h : Heading) (before : List Text) {own : List Text}
    (last : regLine ∉ own) :
    (progress h (before ++ regLine :: own)).allRegisters.length =
      (progress h before).allRegisters.length +
        (progress h (before ++ regLine :: own)).pending.register?.toList.length := by
  have none : .reg ∉ tokens own := not_mem_tokens (k := .reg) rfl last
  rw [length_allRegisters, progress_append h before _ (by simp), tokens_reg, takeLines_reg,
    (takeLines_keeps none _).1, registers_openRegister]

theorem registerOpen_iff (inside : titleLine ∉ pre)
    (formed : (readHeading (tokens pre)).heading = some h) :
    RegisterOpen pre ↔ (progress h pre).pending.register?.isSome = true := by
  have grows (before own : List Text) (split : pre = before ++ regLine :: own)
      (last : regLine ∉ own) : (registersAfter pre).length =
        (registersAfter before).length + (progress h pre).pending.register?.toList.length := by
    subst split
    have formedBefore := (heading_append before (regLine :: own) (by simp)).1.symm.trans formed
    rw [registersAfter_eq inside formed,
      registersAfter_eq (fun title => inside (List.mem_append_left _ title)) formedBefore,
      length_registersAfter h before last]
  constructor
  · rintro ⟨before, own, split, last, more⟩
    have length := grows before own split last
    cases pending : (progress h pre).pending.register? with
    | some r => rfl
    | none =>
      rw [pending] at length
      simp only [Option.toList_none, List.length_nil] at length
      omega
  · intro open_
    by_cases reg : regLine ∈ pre
    · obtain ⟨later, earlier, split, last⟩ := List.eq_append_cons_of_mem (List.mem_reverse.mpr reg)
      have cut : pre = earlier.reverse ++ regLine :: later.reverse := by
        rw [← List.reverse_reverse pre, split]
        simp
      have free : regLine ∉ later.reverse := fun mem => last (List.mem_reverse.mp mem)
      obtain ⟨r, pending⟩ := Option.isSome_iff_exists.mp open_
      have length := grows _ _ cut free
      rw [pending] at length
      exact ⟨_, _, cut, free, length⟩
    · have absent : .reg ∉ (readHeading (tokens pre)).rest := fun mem =>
        not_mem_tokens (k := .reg) rfl reg ((readHeading_suffix _).subset mem)
      rw [progress, (takeLines_keeps absent {}).2] at open_
      cases open_

theorem exists_heading (inside : titleLine ∉ pre)
    (gives : (parse (titleLine :: pre)).1.groups ≠ []) :
    ∃ h, (readHeading (tokens pre)).heading = some h := by
  rw [parse_block inside, readGroup_eq] at gives
  cases formed : (readHeading (tokens pre)).heading with
  | none => simp [formed] at gives
  | some h => exact ⟨h, rfl⟩

theorem RegisterOpen.formed (following : RegisterOpen pre) (inside : titleLine ∉ pre) :
    ∃ h, (readHeading (tokens pre)).heading = some h := by
  obtain ⟨before, own, -, -, more⟩ := following
  refine exists_heading inside fun none => ?_
  simp [registersAfter, none] at more

theorem registerTaken {own : List Text} (inside : titleLine ∉ pre)
    (formed : (readHeading (tokens pre)).heading = some h) (apart : Undivided own) :
    RegisterTaken pre own := by
  obtain ⟨same, told⟩ := heading_append pre (regLine :: own) (by simp)
  have insideBoth := apart.title_not_mem inside (l := regLine) (by decide)
  have none : .field ∉ tokens own := not_mem_tokens (k := .field) rfl apart.field
  have step : progress h (pre ++ regLine :: own) =
      takeRegister h.name (progress h pre) (tokens own) := by
    rw [progress_reg h pre apart, takeRegister, cutAt_not_mem none]
    rfl
  have adds := takeRegister_adds h.name (progress h pre) (tokens own)
  refine ⟨?_, ?_, (takes_readRegister (tokens own)).once⟩
  · rw [registersAfter_eq insideBoth (same.trans formed), registersAfter_eq inside formed, step,
      adds.registers]
  · rw [warningsAfter_eq insideBoth (same.trans formed), warningsAfter_eq inside formed, step,
      adds.warnings, told, List.append_assoc]

/-- A field block after a register that was kept is read for this register. -/
theorem field_opened {own : List Text} (inside : titleLine ∉ pre)
    (formed : (readHeading (tokens pre)).heading = some h) (apart : Undivided own)
    (following : RegisterOpen pre) :
    ∃ front r, registersAfter pre = front ++ [r] ∧
      registersAfter (pre ++ fieldLine :: own) =
        front ++ [pushFields (readField r.name (tokens own)).fields r] ∧
      warningsAfter (pre ++ fieldLine :: own) =
        warningsAfter pre ++ (readField r.name (tokens own)).warnings := by
  obtain ⟨same, told⟩ := heading_append pre (fieldLine :: own) (by simp)
  have insideBoth := apart.title_not_mem inside (l := fieldLine) (by decide)
  rw [registersAfter_eq inside formed, registersAfter_eq insideBoth (same.trans formed),
    warningsAfter_eq inside formed, warningsAfter_eq insideBoth (same.trans formed),
    progress_field h pre apart, told]
  have opened := (registerOpen_iff inside formed).mp following
  cases pending : (progress h pre).pending with
  | register r =>
    rw [takeField_register pending]
    refine ⟨(progress h pre).registers, r, ?_, rfl, (List.append_assoc ..).symm⟩
    rw [Progress.allRegisters, pending]
    rfl
  | nothing =>
    rw [pending] at opened
    cases opened
  | skipped =>
    rw [pending] at opened
    cases opened

theorem field_closed {own : List Text} (inside : titleLine ∉ pre)
    (formed : (readHeading (tokens pre)).heading = some h) (apart : Undivided own)
    (closed : ¬RegisterOpen pre) :
    registersAfter (pre ++ fieldLine :: own) = registersAfter pre := by
  have same := (heading_append pre (fieldLine :: own) (by simp)).1
  have insideBoth := apart.title_not_mem inside (l := fieldLine) (by decide)
  rw [registersAfter_eq inside formed, registersAfter_eq insideBoth (same.trans formed),
    progress_field h pre apart]
  rw [registerOpen_iff inside formed] at closed
  unfold Progress.takeField
  cases pending : (progress h pre).pending with
  | register r =>
    rw [pending] at closed
    exact absurd rfl closed
  | nothing => simp [Progress.allRegisters, pending]
  | skipped => rfl

theorem fieldTaken {own : List Text} (inside : titleLine ∉ pre)
    (formed : (readHeading (tokens pre)).heading = some h) (apart : Undivided own) :
    FieldTaken pre own where
  kept := by
    intro following
    obtain ⟨front, r, before, after, warnings⟩ := field_opened inside formed apart following
    refine ⟨front, r, _, _, before, after, warnings, fun filled => ?_⟩
    refine accounted_readField r.name ?_
    rw [← tokens_linesOfField]
    exact tokens_ne_nil filled
  skipped := field_closed inside formed apart

/-- The register lines of a well-formed title, counted. -/
theorem count_regLine {body : List Text} (inside : titleLine ∉ body)
    (formed : (readHeading (tokens body)).heading = some h) :
    body.count regLine = (registersAfter body).length +
      (warningsAfter body).countP ParseWarning.skipsRegister := by
  have lines : (tokens body).count .reg = body.count regLine := count_tokens rfl body
  have rest := (account_readGroupBody h.title h.name h.uses (readHeading (tokens body)).rest).1
  rw [readGroupBody_eq h] at rest
  rw [registersAfter_eq inside formed, warningsAfter_eq inside formed, List.countP_append,
    (account_readHeading (tokens body)).2.2, Nat.zero_add, ← lines,
    ← count_rest (k := .reg) rfl (by simp [formed])]
  exact rest

end Title

/-! ### All lines -/

/-- Nothing that begins a block is lost: titles, registers and fields are all accounted for. -/
theorem parse_accounts (lines : List Text) :
    lines.count titleLine = (parse lines).1.groups.length +
        (parse lines).2.count .malformedTitle +
        (parse lines).2.countP ParseWarning.isDuplicateTitle ∧
      Joins ((titleBlocks lines).2.map parse) (parse lines).1.groups (parse lines).2 ∧
      ∀ body g, titleLine :: body ∈ (titleBlocks lines).2 →
        (parse (titleLine :: body)).1.groups = [g] →
        (body.count regLine = g.registers.length +
          (warningsAfter body).countP ParseWarning.skipsRegister) ∧
        (∀ pre own, pre ++ regLine :: own <+: body → Undivided own → RegisterTaken pre own) ∧
        ∀ pre own, pre ++ fieldLine :: own <+: body → Undivided own → FieldTaken pre own := by
  obtain ⟨groups, warnings, whole, joins⟩ := joins_parse lines
  refine ⟨?_, by rw [whole]; exact joins, ?_⟩
  · rw [whole, count_titleLine, ← List.length_map (f := parse)]
    refine joins.account fun b hb => ?_
    obtain ⟨block, place, rfl⟩ := List.mem_map.mp hb
    obtain ⟨body, rfl, inside⟩ := shape_of_mem_titleBlocks place
    exact account_block inside
  · intro body g place gives
    obtain ⟨_, same, inside⟩ := shape_of_mem_titleBlocks place
    obtain rfl := List.tail_eq_of_cons_eq same
    obtain ⟨h, formed⟩ := exists_heading inside (by simp [gives])
    have outset {pre own : List Text} {l : Text} (opens : l = regLine ∨ l = fieldLine)
        (front : pre ++ l :: own <+: body) :
        titleLine ∉ pre ∧ (readHeading (tokens pre)).heading = some h := by
      obtain ⟨rest, rfl⟩ := front
      rw [List.append_assoc, List.cons_append] at inside formed
      refine ⟨fun title => inside (List.mem_append_left _ title), ?_⟩
      rw [← (heading_append pre (l :: (own ++ rest)) (by simpa using opens)).1, formed]
    refine ⟨?_, fun pre own front apart => ?_, fun pre own front apart => ?_⟩
    · have counted := count_regLine inside formed
      unfold registersAfter at counted
      rw [gives] at counted
      simpa using counted
    · obtain ⟨insidePre, formedPre⟩ := outset (.inl rfl) front
      exact registerTaken insidePre formedPre apart
    · obtain ⟨insidePre, formedPre⟩ := outset (.inr rfl) front
      exact fieldTaken insidePre formedPre apart

/-- A title with a field block of each outcome: one that adds a field, one that is only warned
about, and one that follows a register without an end. -/
def timerLines : List Text :=
  ["Timers", "timer", "REG", "0x10", "CTRL", "ENDREG", "FIELD", "[3:0]", "MODE", "RW", "ENDFIELD",
    "FIELD", "[7:4", "ENDFIELD", "REG", "0x14", "FIELD", "[0:0]", "RUN", "RW", "ENDFIELD"]

theorem parse_accounts_timers :
    ∃ g, (parse (titleLine :: timerLines)).1.groups = [g] ∧
      (timerLines.count regLine = g.registers.length +
        (warningsAfter timerLines).countP ParseWarning.skipsRegister) ∧
      RegisterTaken (timerLines.take 14) ["0x14"] ∧
      FieldTaken (timerLines.take 11) ["[7:4", "ENDFIELD"] := by
  obtain ⟨-, -, each⟩ := parse_accounts (titleLine :: timerLines)
  obtain ⟨g, gives⟩ : ∃ g, (parse (titleLine :: timerLines)).1.groups = [g] :=
    List.length_eq_one_iff.mp (by decide +kernel)
  obtain ⟨counted, registers, fields⟩ := each timerLines g (by decide) gives
  exact ⟨g, gives, counted, registers _ _ (by decide) ⟨by decide, by decide, by decide⟩,
    fields _ _ (by decide) ⟨by decide, by decide, by decide⟩⟩

end Gateware.RegisterMap
