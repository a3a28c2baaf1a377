import Gateware.Proofs.RegisterMap.Blocks
import Gateware.Proofs.RegisterMap.Legible

/-!
# Descriptions are read back

`parse_describe` states that the description of a describable map is read as that map, with the
remarks of its fields as the only warnings, and with none when its fields are regular and can be
measured. The proof follows the blocks: a field (`readField_fieldLines`), a register
(`readRegister_registerLines`), a group (`readGroup_groupLines`), and the groups one after another
(`foldl_addBlock`).
-/

namespace Gateware

open Text

/-! ### Access types -/

namespace Access

theorem ofTag_suffixed (base : Text) : ofTag (base ++ "-V") = ⟨.ofTag base, true⟩ := by
  have suffix : stripEnd? "-V" (base ++ "-V") = some base := stripEnd?_eq_some_iff.mpr rfl
  unfold ofTag
  rw [suffix]

theorem ofTag_unsuffixed {tag : Text} (h : endsWith "-V" tag = false) :
    ofTag tag = ⟨.ofTag tag, false⟩ := by
  have suffix : stripEnd? "-V" tag = none := by
    unfold endsWith at h
    exact Option.not_isSome_iff_eq_none.mp (by rw [h]; exact Bool.false_ne_true)
  unfold ofTag
  rw [suffix]

theorem ofTag_text {a : Access} (h : a.Describable) : ofTag a.text = a := by
  obtain ⟨kind, volatile⟩ := a
  have read : AccessKind.ofTag kind.tag = kind := by
    cases kind with
    | unknown tag => exact (h tag rfl).2.1
    | _ => rfl
  cases volatile with
  | true =>
    show ofTag (kind.tag ++ "-V") = _
    rw [ofTag_suffixed, read]
  | false =>
    have fixed : endsWith "-V" kind.tag = false := by
      cases kind with
      | unknown tag => exact (h tag rfl).2.2 rfl
      | _ => rfl
    show ofTag kind.tag = _
    rw [ofTag_unsuffixed fixed, read]

end Access

namespace RegisterMap

/-! ### Ranges of indices -/

/-- A block that says its range first, or does not say any, is read so. -/
theorem takeRange_rangeLines {range : Option IndexRange}
    (h : ∀ r, range = some r → r.Describable) (context line : Text) (rest : List DescriptionLine) :
    takeRange context (rangeLines range ++ .text line :: rest) =
      ⟨range, range.isSome, [], .text line :: rest⟩ := by
  cases range with
  | none => rfl
  | some r =>
    have valid := h r rfl
    have nonempty : r.isEmpty = false := IndexRange.isEmpty_eq_false_iff.mpr valid.nonempty
    have read : readRange (rangeText r) context = (some r, []) := by
      unfold readRange
      rw [range?_rangeText valid]
      simp [nonempty]
    show takeRange context (.range (rangeText r) :: .text line :: rest) = _
    unfold takeRange
    simp only [read]
    rfl

/-! ### Lines inside a block -/

theorem text_not_keyword (ls : List Text) :
    ∀ l ∈ ls.map DescriptionLine.text, l.isKeyword = false := by
  intro l hl
  obtain ⟨line, -, rfl⟩ := List.mem_map.mp hl
  rfl

theorem content_not_keyword (first : Text) (range : Option IndexRange) (ls : List Text) :
    ∀ l ∈ .text first :: rangeLines range ++ ls.map DescriptionLine.text, l.isKeyword = false := by
  have ranges : ∀ l ∈ rangeLines range, l.isKeyword = false := by
    cases range <;> simp [rangeLines, DescriptionLine.isKeyword]
  intro l hl
  rcases List.mem_append.mp hl with head | tail
  · rcases List.mem_cons.mp head with rfl | inside
    · rfl
    · exact ranges l inside
  · exact text_not_keyword ls l tail

theorem fieldContent_not_keyword (f : Field) : ∀ l ∈ fieldContent f, l.isKeyword = false := by
  cases f with
  | imported name => exact text_not_keyword [name]
  | concrete f =>
    exact content_not_keyword (fieldText f) f.range (f.name :: f.access.text :: f.description)

theorem registerContent_not_keyword (r : Register) :
    ∀ l ∈ registerContent r, l.isKeyword = false := by
  cases r with
  | imported r => exact text_not_keyword [importText r]
  | concrete r => exact content_not_keyword (addressText r) r.range (r.name :: r.description)

theorem ne_keyword {k : DescriptionLine} (hk : k.isKeyword = true) {ls : List DescriptionLine}
    (h : ∀ l ∈ ls, l.isKeyword = false) : ∀ l ∈ ls, decide (l = k) = false := by
  intro l hl
  refine decide_eq_false ?_
  rintro rfl
  exact Bool.noConfusion (hk.symm.trans (h l hl))

/-- No other keyword stands in a block with its closing line. -/
theorem closed_ne_keyword (k close : DescriptionLine) (hk : k.isKeyword = true) (hne : close ≠ k)
    {ls : List DescriptionLine} (h : ∀ l ∈ ls, l.isKeyword = false) :
    ∀ l ∈ ls ++ [close], decide (l = k) = false := by
  intro l hl
  rcases List.mem_append.mp hl with content | closing
  · exact ne_keyword hk h l content
  · rw [List.mem_singleton.mp closing]
    exact decide_eq_false hne

/-! ### Fields -/

theorem map_content_text (ls : List Text) :
    (ls.map DescriptionLine.text).map DescriptionLine.content = ls := by
  rw [List.map_map]
  exact List.map_id ls

theorem isSome_range_iff {bits : Bits} {range : Option IndexRange} (h : bits.Describable range) :
    range.isSome = true ↔ bits = .indexed := by
  cases bits with
  | indexed =>
    obtain ⟨r, rfl, -⟩ := h
    simp
  | span high low =>
    obtain ⟨rfl, -⟩ := h
    simp

theorem range_describable {bits : Bits} {range : Option IndexRange} (h : bits.Describable range) :
    ∀ r, range = some r → r.Describable := by
  intro r given
  cases bits with
  | indexed =>
    obtain ⟨r', given', valid⟩ := h
    exact Option.some.inj (given.symm.trans given') ▸ valid
  | span high low =>
    rw [h.1] at given
    cases given

theorem readReset_map {reset : Option FieldDefault} (h : ∀ d, reset = some d → d.Describable)
    (bits : Bits) (register : Text) :
    (reset.map FieldDefault.spelling).map (fun s => readReset s bits register) =
      reset.map fun d => (d, d.remarks register bits) := by
  cases reset with
  | none => rfl
  | some d => simp only [Option.map_some, readReset_spelling (h d rfl)]

theorem readConcreteField_fieldContent {f : ConcreteField} (h : f.Describable) (register : Text) :
    readConcreteField register (fieldText f) (rangeLines f.range ++
        .text f.name :: .text f.access.text :: f.description.map DescriptionLine.text) =
      ⟨[.concrete f], accessTags f.access, (Field.concrete f).remarks register⟩ := by
  have name : replace "/" "or" f.name = f.name := replace_eq_self List.mem_cons_self h.no_slash _
  have ranged := isSome_range_iff h.bits
  unfold readConcreteField
  rw [fieldSpec?_fieldText h]
  simp only [readBits_bitsSpec h.bits, takeRange_rangeLines (range_describable h.bits),
    Access.ofTag_text h.access, map_content_text, name, readReset_map h.reset]
  split
  · rename_i indexed none
    rw [none] at ranged
    exact absurd (ranged.mpr indexed) (by decide)
  · have agree : ¬ (f.bits ≠ .indexed ∧ f.range.isSome = true) := fun both =>
      both.1 (ranged.mp both.2)
    have reset : (f.reset.map fun d => (d, d.remarks register f.bits)).map Prod.fst = f.reset := by
      rw [Option.map_map]
      exact Option.map_id'
    rw [if_neg agree, reset, Option.map_map]
    rfl

theorem readField_fieldLines {f : Field} (h : f.Describable) (register : Text) :
    readField register (fieldLines f) = ⟨[f], f.declaredTags, f.remarks register⟩ := by
  unfold readField fieldLines
  rw [closedBy?_append .endField rfl (fieldContent_not_keyword f)]
  cases f with
  | imported name =>
    show readFieldBody register [.text name] = _
    unfold readFieldBody
    simp only [h.2]
    rfl
  | concrete f =>
    have bracket : startsWith "[" (fieldText f) = true := by
      unfold fieldText
      rw [List.append_assoc, List.append_assoc]
      exact startsWith_iff.mpr ⟨_, rfl⟩
    show readFieldBody register (.text (fieldText f) :: (rangeLines f.range ++
      .text f.name :: .text f.access.text :: f.description.map DescriptionLine.text)) = _
    unfold readFieldBody
    simp only [bracket, if_true]
    exact readConcreteField_fieldContent h register

/-! ### Registers -/

theorem readAddress_addressText {r : ConcreteRegister} (h : r.Describable) (name : Text)
    (rest : List DescriptionLine) :
    readAddress (addressText r) name ⟨r.range, r.range.isSome, [], rest⟩ =
      (r.address, r.increment, []) := by
  unfold readAddress
  rw [address?_addressText h]
  cases given : r.range with
  | none => simp [h.fixed given]
  | some range => simp

theorem readRegisterBody_imported {r : ImportedRegister} (h : r.Describable) :
    readRegisterBody [.text (importText r)] = (some (.imported { r with fields := [] }), []) := by
  obtain ⟨name, source, fields⟩ := r
  unfold readRegisterBody
  simp only [h.no_address]
  cases source with
  | none =>
    have uncut : cut? "." (importText ⟨name, none, fields⟩) = none :=
      cut?_eq_none (h.no_source rfl)
    rw [uncut]
    rfl
  | some group =>
    have parts : cut? "." (importText ⟨name, some group, fields⟩) = some (group, name) := by
      have line : importText ⟨name, some group, fields⟩ = group ++ ("." : Text) ++ name := rfl
      rw [line, List.append_assoc]
      exact cut?_append (h.source group rfl) name
    rw [parts]
    rfl

theorem readRegisterBody_concrete {r : ConcreteRegister} (h : r.Describable) :
    readRegisterBody (registerContent (.concrete r)) =
      (some (.concrete { r with fields := [], parameters := .empty }), []) := by
  show readRegisterBody (.text (addressText r) :: (rangeLines r.range ++
    .text r.name :: r.description.map DescriptionLine.text)) = _
  unfold readRegisterBody
  simp only [startsWith_addressText, if_true, takeRange_rangeLines h.range,
    readAddress_addressText h, map_content_text]
  rfl

theorem readRegisterBody_registerContent {r : Register} (h : r.Describable) :
    readRegisterBody (registerContent r) = (some (withFields [] r), []) := by
  cases r with
  | imported r => exact readRegisterBody_imported h.1
  | concrete r => exact readRegisterBody_concrete h.1

/-- A register has its fields back once they are read. -/
theorem withFields_fields {r : Register} (h : r.Describable) :
    withFields r.fields (withFields [] r) = r := by
  cases r with
  | imported r => rfl
  | concrete r =>
    have parameters := h.1.parameters
    show Register.concrete { r with parameters := fieldParameters r.fields } = _
    rw [← parameters]

theorem name_withFields (fields : List Field) (r : Register) :
    (withFields fields r).name = r.name := by
  cases r <;> rfl

theorem map_readField {fields : List Field} (h : ∀ f ∈ fields, f.Describable) (register : Text) :
    (fields.map fieldLines).map (readField register) =
      fields.map fun f => ⟨[f], f.declaredTags, f.remarks register⟩ := by
  rw [List.map_map]
  exact List.map_congr_left fun f hf => readField_fieldLines (h f hf) register

theorem readRegister_registerLines {r : Register} (h : r.Describable) :
    readRegister (registerLines r) = ⟨some r, r.fields.flatMap Field.declaredTags, r.remarks⟩ := by
  have own := closed_ne_keyword .field .endReg rfl (by decide)
    (registerContent_not_keyword r)
  have inner : ∀ f ∈ r.fields, ∀ l ∈ fieldLines f, decide (l = .field) = false := fun f _ =>
    closed_ne_keyword .field .endField rfl (by decide) (fieldContent_not_keyword f)
  have blocks : cutAt (· = .field) (registerLines r) =
      (registerContent r ++ [.endReg], r.fields.map fieldLines) := by
    rw [← cutAt_blocks .field (by decide) own inner, List.append_assoc]
    rfl
  have content : closedBy? .endReg (registerContent r ++ [.endReg]) = some (registerContent r) :=
    closedBy?_append .endReg rfl (registerContent_not_keyword r)
  unfold readRegister
  simp only [blocks, content, readRegisterBody_registerContent h, name_withFields,
    map_readField (fields_describable h), List.flatMap_map, List.flatMap_singleton',
    List.nil_append, withFields_fields h]
  rfl

/-! ### Groups -/

/-- The lines of a register open nothing but fields. -/
theorem registerLines_opening {l : DescriptionLine} {r : Register} (h : l ∈ registerLines r)
    (hk : l.isKeyword = true) : l = .endReg ∨ l = .field ∨ l = .endField := by
  rcases mem_registerLines.mp h with content | close | ⟨f, -, opening | content | close⟩
  · exact Bool.noConfusion (hk.symm.trans (registerContent_not_keyword r l content))
  · exact .inl close
  · exact .inr (.inl opening)
  · exact Bool.noConfusion (hk.symm.trans (fieldContent_not_keyword f l content))
  · exact .inr (.inr close)

theorem title_not_mem_groupLines (g : Group) : .title ∉ groupLines g := by
  intro h
  rcases mem_groupLines.mp h with ⟨_, -, line⟩ | line | line | line | ⟨r, -, line | inside⟩
  · cases line
  · cases line
  · cases line
  · cases line
  · cases line
  · rcases registerLines_opening inside rfl with line | line | line <;> cases line

theorem reg_not_mem_registerLines (r : Register) : .reg ∉ registerLines r := by
  intro h
  rcases registerLines_opening h rfl with line | line | line <;> cases line

theorem filterMap_usedGroup? {uses : List Text} (h : ∀ group ∈ uses, group ≠ []) :
    (uses.map DescriptionLine.uses).filterMap usedGroup? = uses := by
  induction uses with
  | nil => rfl
  | cons group uses ih =>
    have used : usedGroup? (.uses group) = some group := by
      simp [usedGroup?, h group List.mem_cons_self]
    rw [List.map_cons, List.filterMap_cons_some used,
      ih fun u hu => h u (List.mem_cons_of_mem _ hu)]

theorem map_readRegister {registers : List Register} (h : ∀ r ∈ registers, r.Describable) :
    (registers.map registerLines).map readRegister =
      registers.map fun r => ⟨some r, r.fields.flatMap Field.declaredTags, r.remarks⟩ := by
  rw [List.map_map]
  exact List.map_congr_left fun r hr => readRegister_registerLines (h r hr)

theorem readGroupBody_registers {g : Group} (h : g.Describable) :
    readGroupBody g.title g.name g.uses
        (.endTitle :: g.registers.flatMap fun r => .reg :: registerLines r) =
      (g, g.registers.flatMap Register.remarks) := by
  have inner : ∀ r ∈ g.registers, ∀ l ∈ registerLines r, decide (l = .reg) = false := by
    intro r _ l hl
    refine decide_eq_false ?_
    rintro rfl
    exact reg_not_mem_registerLines r hl
  have blocks : cutAt (· = .reg)
      ([.endTitle] ++ g.registers.flatMap fun r => .reg :: registerLines r) =
        ([.endTitle], g.registers.map registerLines) :=
    cutAt_blocks .reg (by decide) (by decide) inner
  rw [List.singleton_append] at blocks
  have strays : (cutAt (· = .field) [DescriptionLine.endTitle]).2 = [] := rfl
  have registers : (g.registers.map fun r => (⟨some r, r.fields.flatMap Field.declaredTags,
      r.remarks⟩ : RegisterBlock)).filterMap RegisterBlock.register = g.registers := by
    rw [List.filterMap_map]
    exact List.filterMap_some
  have tags : (g.registers.flatMap fun r => r.fields.flatMap Field.declaredTags).foldl addTag [] =
      g.accessTypes := by
    rw [h.accessTypes, List.flatMap_assoc]
  unfold readGroupBody
  simp only [blocks, strays, map_readRegister h.registers, registers, List.flatMap_map, tags]
  rfl

theorem readGroup_groupLines {g : Group} (h : g.Describable) :
    readGroup (groupLines g) = (some g, g.registers.flatMap Register.remarks) := by
  have header : ∀ l ∈ g.uses.map DescriptionLine.uses, l.isUses = true := by
    intro l hl
    obtain ⟨group, -, rfl⟩ := List.mem_map.mp hl
    rfl
  have title : DescriptionLine.isUses (.text g.title) = false := rfl
  have uses := filterMap_usedGroup? fun group hg => (h.uses group hg).1
  unfold readGroup groupLines
  simp only [List.takeWhile_append_of_pos header, List.dropWhile_append_of_pos header,
    List.takeWhile_cons, List.dropWhile_cons, title, Bool.false_eq_true, if_false, List.append_nil,
    uses, List.length_map, Nat.sub_self, readGroupBody_registers h]
  rfl

/-! ### Maps -/

/-- Groups of other names are added one after another. -/
theorem foldl_addBlock {gs : List Group} (h : ∀ g ∈ gs, g.Describable) (done : List Group)
    (warnings : List ParseWarning) (names : ((done ++ gs).map Group.name).Nodup) :
    (gs.map groupLines).foldl addBlock (done, warnings) =
      (done ++ gs, warnings ++ gs.flatMap fun g => g.registers.flatMap Register.remarks) := by
  induction gs generalizing done warnings with
  | nil => simp
  | cons g gs ih =>
    have new : (done.any fun other => other.name == g.name) = false := by
      rw [List.map_append, List.map_cons] at names
      have apart := (List.nodup_append.mp names).2.2
      rw [List.any_eq_false]
      intro other hother
      have differ := apart other.name (List.mem_map_of_mem hother) g.name List.mem_cons_self
      simpa using differ
    -- no group that was read before has the name, so this one is appended
    have step : addBlock (done, warnings) (groupLines g) =
        (done ++ [g], warnings ++ g.registers.flatMap Register.remarks) := by
      unfold addBlock addGroup
      rw [readGroup_groupLines (h g List.mem_cons_self)]
      simp [new]
    rw [List.map_cons, List.foldl_cons, step, ih fun g' hg => h g' (List.mem_cons_of_mem _ hg),
      List.flatMap_cons]
    · simp
    · simpa using names

theorem remarks_reset_eq_nil_iff (register : Text) (bits : Bits) (d : FieldDefault) :
    d.remarks register bits = [] ↔ d.Fits bits.width? := by
  unfold FieldDefault.remarks
  by_cases fits : d.Fits bits.width?
  · simp [fits]
  · rw [if_neg fits]
    refine iff_of_false ?_ fits
    cases d <;> exact List.cons_ne_nil _ _

theorem remarks_field_eq_nil_iff (register : Text) {f : ConcreteField} (h : f.bits.Measurable) :
    (Field.concrete f).remarks register = [] ↔ f.Regular := by
  have reset : (f.reset.map (FieldDefault.remarks register f.bits)).getD [] = [] ↔
      ∀ d, f.reset = some d → d.Fits f.bits.size? := by
    rw [← Bits.width?_eq_size? h]
    cases f.reset with
    | none => simp
    | some d => simpa using remarks_reset_eq_nil_iff register f.bits d
  have access : (if f.access.kind.isKnown then []
      else [ParseWarning.unknownAccess f.access.text f.name register]) = [] ↔
      f.access.kind.isKnown = true := by
    cases f.access.kind.isKnown <;> simp
  unfold Field.remarks ConcreteField.Regular
  rw [List.append_eq_nil_iff, access, reset]

theorem remarks_eq_nil_iff {m : RegisterMap} (h : m.Measurable) : m.remarks = [] ↔ m.Regular := by
  unfold remarks Register.remarks Regular
  simp only [List.flatMap_eq_nil_iff]
  constructor
  · intro none g hg r hr f hf
    exact (remarks_field_eq_nil_iff r.name (h g hg r hr f hf)).mp (none g hg r hr (.concrete f) hf)
  · intro regular g hg r hr f hf
    cases f with
    | imported name => rfl
    | concrete f =>
      exact (remarks_field_eq_nil_iff r.name (h g hg r hr f hf)).mpr (regular g hg r hr f hf)

/-- The description of a map is read as that map. What it warns about are the remarks on its
fields; where the number of bits of each field fits into a word, there is none exactly when all
fields are regular. -/
theorem parse_describe {m : RegisterMap} (h : m.Describable) :
    parse m.describe = (m, m.remarks) ∧ (m.Measurable → (m.remarks = [] ↔ m.Regular)) := by
  have blocks : cutAt (· = .title) (description m) = ([], m.groups.map groupLines) := by
    refine cutAt_flatMap (by decide) fun g _ l hl => decide_eq_false ?_
    rintro rfl
    exact title_not_mem_groupLines g hl
  have groups := foldl_addBlock h.groups [] [] (by simpa using h.names)
  have whole : { groups := m.groups, modified := none, owners := .empty } = m := by
    obtain ⟨groups, modified, owners⟩ := m
    obtain rfl : modified = none := h.modified
    obtain rfl : owners = .empty := h.owners
    rfl
  refine ⟨?_, remarks_eq_nil_iff⟩
  calc parse m.describe
      = ofDescription (description m) := parse_written (legible_description h)
    _ = ({ groups := m.groups, modified := none, owners := .empty }, m.remarks) := by
        unfold ofDescription
        rw [blocks]
        simp only [groups]
        rfl
    _ = (m, m.remarks) := by rw [whole]

/-! ### A serial port -/

/-- A divisor whose upper bound and reset value are expressions, with quotes in the latter. -/
def divisor : ConcreteField where
  name := "DIV"
  bits := .span (.expr "WIDTH-1") (.num 0)
  reset := some (.expr "``SLOW``" "SLOW")
  access := ⟨.rw, false⟩
  description := ["Clock divisor.", "Zero stops the port."]
  range := none

def failed : ConcreteField where
  name := "FAILn"
  bits := .indexed
  reset := some (.hex 1)
  access := ⟨.rw1c, true⟩
  description := []
  range := some ⟨0, 2⟩

def baudRate : ConcreteRegister where
  name := "BAUDn"
  address := 16
  increment := 4
  description := ["Speed of port n."]
  fields := [.concrete divisor, .imported "HOLD"]
  range := some ⟨0, 2⟩
  parameters := fieldParameters [.concrete divisor, .imported "HOLD"]

def status : ImportedRegister := ⟨"STATUS", some "COMMON", [.imported "BUSY", .concrete failed]⟩

/-- A repeated register of its own, and one that is imported with a field of its own. -/
def serialPort : RegisterMap where
  groups := [⟨"Serial port", "UART", ["COMMON", "IDS"], [.concrete baudRate, .imported status],
    ["RW", "V", "RW1C"]⟩]
  modified := none
  owners := .empty

theorem divisor_describable : divisor.Describable where
  name := by decide
  no_slash := by decide
  bits := by
    have zero : (Bound.num 0).Describable := by
      unfold Bound.Describable
      decide
    refine ⟨rfl, ⟨by decide, by decide, by decide, by decide⟩, zero, ?_⟩
    rintro h l ⟨⟩
  reset := by
    rintro d ⟨⟩
    exact ⟨"''SLOW''", by decide, by decide⟩
  access := by rintro tag ⟨⟩
  description := by decide

theorem failed_describable : failed.Describable where
  name := by decide
  no_slash := by decide
  bits := ⟨⟨0, 2⟩, rfl, by decide, by decide⟩
  reset := by
    rintro d ⟨⟩
    unfold FieldDefault.Describable
    decide
  access := by rintro tag ⟨⟩
  description := by decide

theorem baudRate_describable : (Register.concrete baudRate).Describable := by
  constructor
  · refine ⟨by decide, by decide, by decide, nofun, ?_, by decide, rfl⟩
    rintro range ⟨⟩
    exact ⟨by decide, by decide⟩
  · intro f hf
    rcases List.mem_cons.mp hf with rfl | hf
    · exact divisor_describable
    · obtain rfl := List.mem_singleton.mp hf
      exact ⟨by decide, by decide⟩

theorem status_describable : (Register.imported status).Describable := by
  constructor
  · refine ⟨by decide, by decide, nofun, ?_⟩
    rintro group ⟨⟩
    decide
  · intro f hf
    rcases List.mem_cons.mp hf with rfl | hf
    · exact ⟨by decide, by decide⟩
    · obtain rfl := List.mem_singleton.mp hf
      exact failed_describable

theorem serialPort_describable : serialPort.Describable where
  groups := by
    intro g hg
    obtain rfl := List.mem_singleton.mp hg
    refine ⟨by decide, by decide, by decide, ?_, rfl⟩
    intro r hr
    rcases List.mem_cons.mp hr with rfl | hr
    · exact baudRate_describable
    · obtain rfl := List.mem_singleton.mp hr
      exact status_describable
  names := by decide
  modified := rfl
  owners := rfl

theorem serialPort_measurable : serialPort.Measurable := by
  intro g hg
  obtain rfl := List.mem_singleton.mp hg
  intro r hr
  rcases List.mem_cons.mp hr with rfl | hr
  · intro f hf
    obtain rfl : f = divisor := by simpa [baudRate, Register.fields] using hf
    decide
  · obtain rfl := List.mem_singleton.mp hr
    intro f hf
    obtain rfl : f = failed := by simpa [status, Register.fields] using hf
    decide

/-- The description of the serial port is read without a warning. -/
theorem parse_describe_serialPort :
    serialPort.Describable ∧ serialPort.Measurable ∧ serialPort.Regular ∧
      parse serialPort.describe = (serialPort, []) := by
  have silent : serialPort.remarks = [] := by decide +kernel
  obtain ⟨read, exact⟩ := parse_describe serialPort_describable
  exact ⟨serialPort_describable, serialPort_measurable, (exact serialPort_measurable).mp silent,
    read.trans (congrArg (Prod.mk serialPort) silent)⟩

end RegisterMap

end Gateware
