import Gateware.Proofs.RegisterMap.Blocks
import Gateware.RegisterMap.Cursor

/-!
# One pass reads the same

A description that is cut into blocks first and one that is read by a single cursor give the same
map and the same warnings (`Cursor.parse_eq`): whatever is malformed in a block, the cursor goes on
at the next line that opens one, and stops a group where the next title stands.
-/

namespace Gateware.RegisterMap

/-! ### Blocks -/

theorem closedBy?_keyword {close l : DescriptionLine} (h : l.isKeyword = true)
    (ls : List DescriptionLine) :
    closedBy? close (l :: ls) = if l = close then some [] else none := by
  unfold closedBy?
  simp [h]

theorem closedBy?_content {close l : DescriptionLine} (h : l.isKeyword = false)
    (ls : List DescriptionLine) :
    closedBy? close (l :: ls) = (closedBy? close ls).map (l :: ·) := by
  unfold closedBy?
  simp only [h, Bool.not_false, List.dropWhile_cons_of_pos, List.takeWhile_cons_of_pos]
  split <;> rfl

/-- A block is not closed beyond the next keyword. -/
theorem closedBy?_append_stop {close : DescriptionLine} (lead : List DescriptionLine)
    {rest : List DescriptionLine} (stop : ∀ l ∈ rest.head?, l.isKeyword = true ∧ l ≠ close) :
    closedBy? close (lead ++ rest) = closedBy? close lead := by
  induction lead with
  | nil =>
    cases rest with
    | nil => rfl
    | cons l rest =>
      obtain ⟨keyword, other⟩ := stop l rfl
      rw [List.nil_append, closedBy?_keyword keyword, if_neg other]
      rfl
  | cons l lead ih =>
    rw [List.cons_append]
    cases keyword : l.isKeyword with
    | true => rw [closedBy?_keyword keyword, closedBy?_keyword keyword]
    | false => rw [closedBy?_content keyword, closedBy?_content keyword, ih]

/-- The lines before the first opening line, and the rest, which such a line begins. -/
theorem cutAt_split (opens : DescriptionLine → Bool) (ls : List DescriptionLine) :
    ∃ rest, ls = (cutAt opens ls).1 ++ rest ∧ (∀ l ∈ rest.head?, opens l = true) ∧
      (∀ l ∈ (cutAt opens ls).1, opens l = false) ∧ cutAt opens rest = ([], (cutAt opens ls).2) := by
  induction ls with
  | nil => exact ⟨[], rfl, by simp, by simp [cutAt], rfl⟩
  | cons l ls ih =>
    obtain ⟨rest, split, head, lead, blocks⟩ := ih
    cases h : opens l with
    | true =>
      refine ⟨l :: ls, by simp [cutAt, h], by simp [h], by simp [cutAt, h], ?_⟩
      simp [cutAt, h]
    | false =>
      refine ⟨rest, ?_, head, ?_, ?_⟩
      · simp only [cutAt, h, Bool.false_eq_true, if_false, List.cons_append]
        rw [← split]
      · simpa [cutAt, h] using lead
      · simpa [cutAt, h] using blocks

theorem closedBy?_cutAt {close : DescriptionLine} {opens : DescriptionLine → Bool}
    (h : ∀ l, opens l = true → l.isKeyword = true ∧ l ≠ close) (ls : List DescriptionLine) :
    closedBy? close (cutAt opens ls).1 = closedBy? close ls := by
  obtain ⟨rest, split, head, -, -⟩ := cutAt_split opens ls
  have stop := closedBy?_append_stop (cutAt opens ls).1 fun l first => h l (head l first)
  rw [← split] at stop
  exact stop.symm

namespace Cursor

theorem takeBlock_fst {close : DescriptionLine} (keyword : close.isKeyword = true)
    (ls : List DescriptionLine) : (takeBlock close ls).1 = closedBy? close ls := by
  fun_induction takeBlock close ls with
  | case1 => rfl
  | case2 ls => rw [closedBy?_keyword keyword, if_pos rfl]
  | case3 l ls other keyword => rw [closedBy?_keyword keyword, if_neg other]
  | case4 l ls other plain content rest taken ih =>
    rw [taken] at ih
    rw [closedBy?_content (by simpa using plain), ← ih]

/-! ### The registers of a group -/

variable {group : Text}

theorem readRegisters_skip {l : DescriptionLine} (title : l ≠ .title) (reg : l ≠ .reg)
    (field : l ≠ .field) (p : Progress) (ls : List DescriptionLine) :
    readRegisters group p (l :: ls) = readRegisters group p ls := by
  rw [readRegisters] <;> assumption

/-- What a block takes up is nothing that the registers stop at. -/
theorem readRegisters_takeBlock {close : DescriptionLine} (h : close = .endReg ∨ close = .endField)
    (p : Progress) (ls : List DescriptionLine) :
    readRegisters group p (takeBlock close ls).2 = readRegisters group p ls := by
  fun_induction takeBlock close ls with
  | case1 => rfl
  | case2 ls =>
    refine (readRegisters_skip ?_ ?_ ?_ p ls).symm <;> rcases h with rfl | rfl <;> simp
  | case3 => rfl
  | case4 l ls other plain content rest taken ih =>
    rw [taken] at ih
    refine ih.trans (readRegisters_skip ?_ ?_ ?_ p ls).symm
    all_goals
      rintro rfl
      exact plain rfl

def takeFields (group : Text) (p : Progress) (blocks : List (List DescriptionLine)) : Progress :=
  blocks.foldl (fun p ls => p.takeField group (closedBy? .endField ls)) p

def takeRegister (group : Text) (p : Progress) (ls : List DescriptionLine) : Progress :=
  let (own, blocks) := cutAt (· = .field) ls
  takeFields group (p.openRegister (closedBy? .endReg own)) blocks

/-- The lines of a group cut into registers and fields, one after the other. -/
def takeLines (group : Text) (p : Progress) (ls : List DescriptionLine) : Progress :=
  let (lead, blocks) := cutAt (· = .reg) ls
  blocks.foldl (takeRegister group) (takeFields group p (cutAt (· = .field) lead).2)

theorem takeLines_reg (p : Progress) (ls : List DescriptionLine) :
    takeLines group p (.reg :: ls) =
      takeLines group (p.openRegister (closedBy? .endReg ls)) ls := by
  have own : closedBy? .endReg (cutAt (· = .field) (cutAt (· = .reg) ls).1).1 =
      closedBy? .endReg ls := by
    rw [closedBy?_cutAt (by simp [DescriptionLine.isKeyword]),
      closedBy?_cutAt (by simp [DescriptionLine.isKeyword])]
  simp [takeLines, takeRegister, takeFields, cutAt, own]

theorem takeLines_field (p : Progress) (ls : List DescriptionLine) :
    takeLines group p (.field :: ls) =
      takeLines group (p.takeField group (closedBy? .endField ls)) ls := by
  have own : closedBy? .endField (cutAt (· = .field) (cutAt (· = .reg) ls).1).1 =
      closedBy? .endField ls := by
    rw [closedBy?_cutAt (by simp [DescriptionLine.isKeyword]),
      closedBy?_cutAt (by simp [DescriptionLine.isKeyword])]
  simp [takeLines, takeFields, cutAt, own]

theorem takeLines_skip {l : DescriptionLine} (reg : l ≠ .reg) (field : l ≠ .field) (p : Progress)
    (ls : List DescriptionLine) : takeLines group p (l :: ls) = takeLines group p ls := by
  simp [takeLines, cutAt, reg, field]

theorem readRegisters_eq {body after : List DescriptionLine} (inside : .title ∉ body)
    (stop : ∀ l ∈ after.head?, l = .title) (p : Progress) :
    readRegisters group p (body ++ after) = (takeLines group p body, after) := by
  induction body generalizing p with
  | nil =>
    cases after with
    | nil => rw [List.nil_append, readRegisters]; rfl
    | cons l after =>
      obtain rfl := stop l rfl
      rw [List.nil_append, readRegisters]
      rfl
  | cons l body ih =>
    obtain ⟨title, inside⟩ := List.ne_and_not_mem_of_not_mem_cons inside
    have ends {close : DescriptionLine} (other : close ≠ .title) :
        closedBy? close (body ++ after) = closedBy? close body :=
      closedBy?_append_stop body fun l first => by
        obtain rfl := stop l first
        exact ⟨rfl, other.symm⟩
    rw [List.cons_append]
    by_cases reg : l = .reg
    · rw [reg, readRegisters, readRegisters_takeBlock (.inl rfl), takeBlock_fst rfl,
        ends (by simp), ih inside, takeLines_reg]
    by_cases field : l = .field
    · rw [field, readRegisters, readRegisters_takeBlock (.inr rfl), takeBlock_fst rfl,
        ends (by simp), ih inside, takeLines_field]
    · rw [readRegisters_skip title.symm reg field, ih inside, takeLines_skip reg field]

/-! ### What the lines of a group add up to -/

theorem takeFields_nothing {p : Progress} (h : p.pending = .nothing)
    (blocks : List (List DescriptionLine)) :
    takeFields group p blocks =
      { p with warnings := p.warnings ++ blocks.map fun _ => .fieldOutsideRegister group } := by
  unfold takeFields
  induction blocks generalizing p with
  | nil => simp
  | cons block blocks ih =>
    have step : p.takeField group (closedBy? .endField block) =
        { p with warnings := p.warnings ++ [.fieldOutsideRegister group] } := by
      unfold Progress.takeField
      rw [h]
    have later := ih (p := { p with warnings := p.warnings ++ [.fieldOutsideRegister group] }) h
    rw [List.foldl_cons, step, later]
    simp

theorem takeFields_skipped {p : Progress} (h : p.pending = .skipped)
    (blocks : List (List DescriptionLine)) : takeFields group p blocks = p := by
  unfold takeFields
  induction blocks with
  | nil => rfl
  | cons block blocks ih =>
    have step : p.takeField group (closedBy? .endField block) = p := by
      unfold Progress.takeField
      rw [h]
    rw [List.foldl_cons, step, ih]

theorem name_pushFields (fields : List Field) (r : Register) :
    (pushFields fields r).name = r.name := by
  cases r <;> rfl

theorem union_fieldParameters (fields more : List Field) :
    (fieldParameters fields).union (fieldParameters more) = fieldParameters (fields ++ more) := by
  refine KeySet.ext_mem fun p => ?_
  simp only [KeySet.mem_union, mem_fieldParameters, List.mem_append, or_and_right, exists_or]

theorem pushFields_pushFields (fields more : List Field) (r : Register) :
    pushFields more (pushFields fields r) = pushFields (fields ++ more) r := by
  cases r with
  | imported r => simp [pushFields]
  | concrete r =>
    have parameters : (r.parameters.union (fieldParameters fields)).union (fieldParameters more) =
        r.parameters.union (fieldParameters (fields ++ more)) := by
      rw [← union_fieldParameters]
      exact KeySet.ext_mem fun p => by simp [or_assoc]
    simp [pushFields, parameters]

theorem pushFields_nil (r : Register) : pushFields [] r = r := by
  have nothing (s : KeySet Text) : s.union (fieldParameters []) = s :=
    KeySet.ext_mem fun p => by simp [mem_fieldParameters]
  cases r <;> simp [pushFields, nothing]

theorem takeField_register {p : Progress} {r : Register} (h : p.pending = .register r)
    (ls : List DescriptionLine) :
    p.takeField group (closedBy? .endField ls) = { p with
      pending := .register (pushFields (readField r.name ls).fields r)
      tags := (readField r.name ls).tags.foldl addTag p.tags
      warnings := p.warnings ++ (readField r.name ls).warnings } := by
  unfold Progress.takeField readField
  rw [h]
  cases closedBy? .endField ls <;> rfl

theorem takeFields_register {p : Progress} {r : Register} (h : p.pending = .register r)
    (blocks : List (List DescriptionLine)) :
    takeFields group p blocks = { p with
      pending := .register
        (pushFields ((blocks.map (readField r.name)).flatMap FieldBlock.fields) r)
      tags := ((blocks.map (readField r.name)).flatMap FieldBlock.tags).foldl addTag p.tags
      warnings := p.warnings ++ (blocks.map (readField r.name)).flatMap FieldBlock.warnings } := by
  unfold takeFields
  induction blocks generalizing p r with
  | nil => simp [pushFields_nil, ← h]
  | cons block blocks ih =>
    rw [List.foldl_cons, takeField_register h, ih rfl, name_pushFields, pushFields_pushFields]
    simp [List.foldl_append]

/-- A register that was just read has no fields yet. -/
theorem pushFields_of_read {content : List DescriptionLine} {r : Register}
    (h : (readRegisterBody content).1 = some r) (fields : List Field) :
    pushFields fields r = withFields fields r := by
  have none_yet : KeySet.empty.union (fieldParameters fields) = fieldParameters fields :=
    KeySet.ext_mem fun p => by simp
  unfold readRegisterBody at h
  split at h
  · simp only at h
    split at h
    · split at h
      · cases h
        simp [pushFields, withFields, none_yet]
      · cases h
    · split at h <;> cases h <;> rfl
  · cases h

/-- What a step adds to a group: a register that is complete or open, tags and warnings. -/
structure Adds (p q : Progress) (registers : List Register) (tags : List Text)
    (warnings : List ParseWarning) : Prop where
  registers : q.allRegisters = p.allRegisters ++ registers
  tags : q.tags = tags.foldl addTag p.tags
  warnings : q.warnings = p.warnings ++ warnings

theorem takeRegister_adds (group : Text) (p : Progress) (ls : List DescriptionLine) :
    Adds p (takeRegister group p ls) (readRegister ls).register.toList (readRegister ls).tags
      (readRegister ls).warnings := by
  unfold takeRegister readRegister
  simp only
  generalize (cutAt (· = .field) ls).2 = blocks
  cases closedBy? .endReg (cutAt (· = .field) ls).1 with
  | none =>
    rw [takeFields_skipped rfl]
    exact ⟨by simp [Progress.openRegister, Progress.allRegisters, Pending.register?], rfl, rfl⟩
  | some content =>
    cases read : readRegisterBody content with
    | mk register warnings =>
      have opened : p.openRegister (some content) = { p with
          registers := p.allRegisters
          pending := (register.map Pending.register).getD .skipped
          warnings := p.warnings ++ warnings } := by
        simp [Progress.openRegister, read]
      simp only [opened, read]
      cases register with
      | none =>
        rw [takeFields_skipped rfl]
        exact ⟨by simp [Progress.allRegisters, Pending.register?], rfl, rfl⟩
      | some r =>
        have fresh := pushFields_of_read (r := r) (congrArg Prod.fst read)
        rw [takeFields_register (r := r) rfl]
        exact ⟨by simp [Progress.allRegisters, Pending.register?, fresh], rfl, by simp⟩

theorem takeRegisters_adds (group : Text) (p : Progress) (blocks : List (List DescriptionLine)) :
    Adds p (blocks.foldl (takeRegister group) p)
      ((blocks.map readRegister).filterMap RegisterBlock.register)
      ((blocks.map readRegister).flatMap RegisterBlock.tags)
      ((blocks.map readRegister).flatMap RegisterBlock.warnings) := by
  induction blocks generalizing p with
  | nil => exact ⟨by simp, rfl, by simp⟩
  | cons ls blocks ih =>
    have first := takeRegister_adds group p ls
    have later := ih (takeRegister group p ls)
    refine ⟨?_, ?_, ?_⟩
    · rw [List.foldl_cons, later.registers, first.registers]
      cases register : (readRegister ls).register <;> simp [register]
    · rw [List.foldl_cons, later.tags, first.tags]
      simp [List.foldl_append]
    · rw [List.foldl_cons, later.warnings, first.warnings]
      simp

theorem readGroupBody_eq (h : Heading) (ls : List DescriptionLine) :
    readGroupBody h.title h.name h.uses ls =
      ((takeLines h.name {} ls).group h, (takeLines h.name {} ls).warnings) := by
  unfold readGroupBody takeLines
  simp only
  generalize (cutAt (· = .reg) ls).2 = blocks
  rw [takeFields_nothing rfl]
  generalize (cutAt (· = .field) (cutAt (· = .reg) ls).1).2 = strays
  have adds := takeRegisters_adds h.name
    { warnings := [] ++ strays.map fun _ => .fieldOutsideRegister h.name } blocks
  simp only [Progress.group, adds.registers, adds.tags, adds.warnings]
  simp [Progress.allRegisters, Pending.register?]

/-! ### Titles -/

theorem header_append (body : List DescriptionLine) {after : List DescriptionLine}
    (stop : ∀ l ∈ after.head?, l.isKeyword = true) :
    (body ++ after).takeWhile DescriptionLine.isUses = body.takeWhile DescriptionLine.isUses ∧
      (body ++ after).dropWhile DescriptionLine.isUses =
        body.dropWhile DescriptionLine.isUses ++ after := by
  induction body with
  | nil =>
    cases after with
    | nil => simp
    | cons l after =>
      have keyword := stop l rfl
      have other : l.isUses = false := by
        cases l with
        | uses group => cases keyword
        | _ => rfl
      simp [other]
  | cons l body ih =>
    cases uses : l.isUses with
    | true => simpa [uses] using ih
    | false => simp [uses]

/-- A heading does not reach beyond the next keyword. -/
theorem readHeading_append (body : List DescriptionLine) {after : List DescriptionLine}
    (stop : ∀ l ∈ after.head?, l.isKeyword = true) :
    readHeading (body ++ after) =
      { readHeading body with rest := (readHeading body).rest ++ after } := by
  obtain ⟨taken, dropped⟩ := header_append body stop
  unfold readHeading
  simp only [taken, dropped]
  have nothing : ∀ l more, after = l :: more → ∀ line, l ≠ .text line := by
    rintro l more rfl line rfl
    cases stop (.text line) rfl
  rcases body.dropWhile DescriptionLine.isUses with _ | ⟨l, rest⟩
  · cases after with
    | nil => rfl
    | cons l more => cases l <;> first | rfl | exact absurd rfl (nothing _ _ rfl _)
  cases l with
  | text title =>
    rcases rest with _ | ⟨l, rest⟩
    · cases after with
      | nil => rfl
      | cons l more => cases l <;> first | rfl | exact absurd rfl (nothing _ _ rfl _)
    · cases l <;> rfl
  | _ => rfl

theorem readHeading_suffix (ls : List DescriptionLine) : (readHeading ls).rest <:+ ls := by
  have suffix := List.dropWhile_suffix DescriptionLine.isUses (l := ls)
  unfold readHeading
  simp only
  split
  · rename_i title name rest e
    rw [e] at suffix
    exact ((List.suffix_cons _ _).trans (List.suffix_cons _ _)).trans suffix
  · rename_i title rest _ e
    rw [e] at suffix
    exact (List.suffix_cons _ _).trans suffix
  · exact suffix

theorem readGroup_eq (ls : List DescriptionLine) :
    readGroup ls = match (readHeading ls).heading with
      | none => (none, (readHeading ls).warnings)
      | some h =>
        let p := takeLines h.name {} (readHeading ls).rest
        (some (p.group h), (readHeading ls).warnings ++ p.warnings) := by
  unfold readGroup readHeading
  simp only
  generalize (ls.takeWhile DescriptionLine.isUses).filterMap usedGroup? = uses
  rcases ls.dropWhile DescriptionLine.isUses with _ | ⟨l, rest⟩
  · rfl
  cases l with
  | text title =>
    rcases rest with _ | ⟨l, rest⟩
    · rfl
    cases l with
    | text name =>
      have body : readGroupBody title name uses rest = _ := readGroupBody_eq ⟨title, name, uses⟩ rest
      simp only [body]
    | _ => rfl
  | _ => rfl

/-! ### Groups -/

theorem readGroups_skip {lead : List DescriptionLine} (h : .title ∉ lead)
    (known : List Group × List ParseWarning) (after : List DescriptionLine) :
    readGroups known (lead ++ after) = readGroups known after := by
  induction lead with
  | nil => rfl
  | cons l lead ih =>
    obtain ⟨title, rest⟩ := List.ne_and_not_mem_of_not_mem_cons h
    rw [List.cons_append, readGroups, ih rest]
    exact title.symm

theorem readGroups_block {block after : List DescriptionLine} (inside : .title ∉ block)
    (stop : ∀ l ∈ after.head?, l = .title) (known : List Group × List ParseWarning) :
    readGroups known (.title :: (block ++ after)) = readGroups (addBlock known block) after := by
  have rest : .title ∉ (readHeading block).rest := fun h =>
    inside ((readHeading_suffix block).subset h)
  have keyword : ∀ l ∈ after.head?, l.isKeyword = true := fun l first => by
    rw [stop l first]
    rfl
  rw [readGroups]
  simp only [readHeading_append block keyword]
  unfold addBlock
  rw [readGroup_eq]
  simp only
  cases (readHeading block).heading with
  | none => exact readGroups_skip rest _ after
  | some h =>
    simp only
    rw [readRegisters_eq rest stop]

theorem readGroups_eq (known : List Group × List ParseWarning) (ls : List DescriptionLine) :
    readGroups known ls = (cutAt (· = .title) ls).2.foldl addBlock known := by
  -- The cursor goes on where a group ends, which is any number of lines further.
  induction h : ls.length using Nat.strongRecOn generalizing known ls with
  | _ size ih =>
    cases ls with
    | nil => rw [readGroups]; rfl
    | cons l ls =>
      rw [List.length_cons] at h
      by_cases title : l = .title
      · obtain ⟨rest, split, head, inside, blocks⟩ := cutAt_split (· = .title) ls
        have shorter := congrArg List.length split
        rw [List.length_append] at shorter
        have later := ih rest.length (by omega) (addBlock known (cutAt (· = .title) ls).1) rest rfl
        have block := readGroups_block (fun h => by simpa using inside _ h)
          (fun l first => by simpa using head l first) known
        rw [← split, later, blocks] at block
        rw [title, block]
        simp [cutAt]
      · rw [readGroups, ih ls.length (by omega) known ls rfl]
        · simp [cutAt, title]
        · exact title

/-- A description that is read in one pass gives what its blocks give. -/
theorem parse_eq (lines : List Text) : Cursor.parse lines = RegisterMap.parse lines := by
  unfold Cursor.parse RegisterMap.parse ofDescription
  rw [readGroups_eq]

end Cursor

end Gateware.RegisterMap
