import Gateware.Proofs.RegisterMap.Isolation
import Gateware.Proofs.RegisterMap.Snapshot
import Gateware.Proofs.RegisterMap.Surroundings
import Mathlib.Data.List.Nodup

/-!
# Importing a register whole or by its fields

A declaration is a description around the block of a concrete register; its `names` are those of its
field blocks as they are written. An import without fields and one that selects all of these names
are replaced by the same register exactly when no name has a slash (`selection_agrees_iff`): a field
is kept under `storedName`, and a selected one is looked up under the name as it is written.
-/

namespace Gateware.RegisterMap

open Text

/-- The name under which a declared field is kept. -/
def storedName (name : Text) : Text := replace "/" "or" name

/-- The block of a field with bits and a name of its own, with nothing missing. -/
inductive DeclaresField (register : Text) (ls : List DescriptionLine) (name : Text) : Prop
  | intro {first tag : Text} {spec : Grammar.FieldSpec} {rest description : List DescriptionLine}
    (closed : closedBy? .endField ls = some (.text first :: rest))
    (bracket : startsWith "[" first = true) (bits : Grammar.fieldSpec? first = some spec)
    (indexed : spec.bits = "n" → (takeRange register rest).range ≠ none)
    (named : (takeRange register rest).rest = .text name :: .text tag :: description)

/-- A description that declares a register with complete fields, before any other of its name in
the group. -/
structure Declaration where
  around : Surroundings
  block : List DescriptionLine
  enclosed : Enclosed block
  /-- The lines of the register itself. -/
  content : List DescriptionLine
  closed : closedBy? .endReg (cutAt (· = .field) block).1 = some content
  head : ConcreteRegister
  reads : (readRegisterBody content).1 = some (.concrete head)
  names : List Text
  declares : List.Forall₂ (DeclaresField head.name) (cutAt (· = .field) block).2 names
  first : ∀ d, Register.concrete d ∈ around.front → d.name ≠ head.name

/-- The lines of an import that names no group. -/
structure ImportLines (ls : List DescriptionLine) (name : Text) : Prop where
  enclosed : Enclosed ls
  field : DescriptionLine.field ∉ ls
  closed : ∃ more, closedBy? .endReg ls = some (.text name :: more)

/-- The lines that select the fields of those names. -/
def selectionLines (names : List Text) : List DescriptionLine :=
  .field :: (names.map DescriptionLine.text ++ [.endField])

/-- The map at the key is read from a description with this block. -/
def Surroundings.Describes (s : Surroundings) (block : List DescriptionLine) (t : MapTable)
    (key : Text) : Prop :=
  ∃ lines, tokens lines = s.lines block ∧ t.get? key = some (parse lines).1

def registerAt? (t : MapTable) (key group : Text) (place : Nat) : Option Register :=
  (t.get? key).bind fun m => (m.group? group).bind fun g => g.registers[place]?

/-! ### Declared fields -/

theorem storedName_eq_self_iff {name : Text} : storedName name = name ↔ '/' ∉ name := by
  constructor
  · intro same
    rw [← same]
    exact not_mem_replace_char (by decide) name
  · exact fun free => replace_eq_self (by decide) free _

theorem readBits_indexed_iff {spec register : Text} :
    (readBits spec register).1 = .indexed ↔ spec = "n" := by
  unfold readBits
  split
  · simp [*]
  · simp only [*, iff_false]
    repeat' split
    all_goals exact nofun

theorem readField_declared {register name : Text} {ls : List DescriptionLine}
    (h : DeclaresField register ls name) : ∃ f : ConcreteField,
      (readField register ls).fields = [.concrete f] ∧ f.name = storedName name := by
  obtain @⟨first, tag, spec, rest, description, closed, bracket, bits, indexed, named⟩ := h
  have read : readField register ls = readConcreteField register first rest := by
    simp only [readField, closed, readFieldBody, bracket, if_true]
  rw [read, readConcreteField, bits]
  simp only [named]
  split
  · rename_i noRange
    exact absurd noRange (indexed (readBits_indexed_iff.mp ‹_›))
  · exact ⟨_, rfl, rfl⟩

namespace Declaration

variable (p : Declaration)

def fields : List Field :=
  (cutAt (· = .field) p.block).2.flatMap fun ls => (readField p.head.name ls).fields

/-- The register as it is declared. -/
def register : ConcreteRegister :=
  { p.head with fields := p.fields, parameters := fieldParameters p.fields }

theorem readRegister_block : (readRegister p.block).register = some (.concrete p.register) := by
  have reads := p.reads
  unfold readRegister
  simp only [p.closed]
  rcases body : readRegisterBody p.content with ⟨found, warnings⟩
  rw [body] at reads
  obtain rfl : found = some (.concrete p.head) := reads
  simp only [List.flatMap_map]
  rfl

theorem exists_fields : ∃ fields : List ConcreteField,
    p.fields = fields.map .concrete ∧ fields.map ConcreteField.name = p.names.map storedName := by
  have each {blocks : List (List DescriptionLine)} {names : List Text}
      (h : List.Forall₂ (DeclaresField p.head.name) blocks names) : ∃ fields : List ConcreteField,
        (blocks.flatMap fun ls => (readField p.head.name ls).fields) = fields.map .concrete ∧
        fields.map ConcreteField.name = names.map storedName := by
    induction h with
    | nil => exact ⟨[], rfl, rfl⟩
    | cons declared _ ih =>
      obtain ⟨f, read, name⟩ := readField_declared declared
      obtain ⟨fields, later, names⟩ := ih
      refine ⟨f :: fields, ?_, ?_⟩
      · rw [List.flatMap_cons, read, later]
        rfl
      · rw [List.map_cons, List.map_cons, name, names]
  exact each p.declares

theorem map_name_fields : p.fields.map Field.name = p.names.map storedName := by
  obtain ⟨fields, same, names⟩ := p.exists_fields
  rw [same, List.map_map, ← names]
  rfl

end Declaration

/-! ### Import lines -/

theorem readField_selection {register : Text} {names : List Text}
    (bracket : ∀ x ∈ names.head?, startsWith "[" x = false) :
    readField register (names.map DescriptionLine.text ++ [.endField]) =
      ⟨names.map Field.imported, [], []⟩ := by
  have plain : ∀ l ∈ names.map DescriptionLine.text, l.isKeyword = false := by
    intro l hl
    obtain ⟨x, -, rfl⟩ := List.mem_map.mp hl
    rfl
  unfold readField
  rw [closedBy?_append .endField rfl plain]
  cases names with
  | nil => rfl
  | cons x names =>
    have free : startsWith "[" x = false := bracket x rfl
    show (if startsWith "[" x then _ else FieldBlock.mk _ [] []) = _
    rw [free, List.map_map]
    rfl

namespace ImportLines

variable {ls : List DescriptionLine} {name : Text}

theorem enclosed_selection (h : ImportLines ls name) (names : List Text) :
    Enclosed (ls ++ selectionLines names) := by
  have title := h.enclosed.title
  have reg := h.enclosed.reg
  constructor <;> simp [selectionLines, title, reg]

theorem readRegister_import (h : ImportLines ls name) (plain : '.' ∉ name)
    (unaddressed : startsWith "0x" name = false) (names : List Text)
    (bracket : ∀ x ∈ names.head?, startsWith "[" x = false) :
    readRegister ls = ⟨some (.imported ⟨name, none, []⟩), [], []⟩ ∧
      readRegister (ls ++ selectionLines names) =
        ⟨some (.imported ⟨name, none, names.map .imported⟩), [], []⟩ := by
  obtain ⟨more, closed⟩ := h.closed
  have source : cut? "." name = none := cut?_eq_none plain
  have body : readRegisterBody (.text name :: more) = (some (.imported ⟨name, none, []⟩), []) := by
    simp only [readRegisterBody, unaddressed, source, Bool.false_eq_true, if_false]
  have own := cutAt_not_mem h.field
  have selecting : cutAt (· = .field) (ls ++ selectionLines names) =
      (ls, [names.map DescriptionLine.text ++ [.endField]]) := by
    unfold selectionLines
    rw [cutAt_append_opening (decide_eq_true rfl), own, cutAt_not_mem (by simp)]
    rfl
  constructor
  · simp only [readRegister, own, closed, body]
    rfl
  · simp only [readRegister, selecting, closed, body, List.map_cons, List.map_nil, Register.name,
      readField_selection bracket]
    simp [withFields]

end ImportLines

/-! ### The place of a block -/

theorem find?_name_of_unique {α : Type} {name : α → Text} {l : List α} {x : α} (h : x ∈ l)
    (unique : ∀ y ∈ l, name y = name x → y = x) :
    l.find? (fun y => name y == name x) = some x := by
  cases found : l.find? fun y => name y == name x with
  | none => exact absurd rfl (find?_name_eq_none_iff.mp found x h)
  | some y =>
    have named := List.find?_some found
    rw [unique y (List.mem_of_find?_eq_some found) (eq_of_beq named)]

theorem find?_name_of_mem {α : Type} {name : α → Text} {l : List α} (names : (l.map name).Nodup)
    {x : α} (h : x ∈ l) : l.find? (fun y => name y == name x) = some x :=
  find?_name_of_unique h fun _ hy => List.inj_on_of_nodup_map names hy h

theorem group?_of_mem {m : RegisterMap} (names : (m.groups.map Group.name).Nodup) {g : Group}
    (h : g ∈ m.groups) : m.group? g.name = some g :=
  find?_name_of_mem names h

namespace Surroundings

variable {s : Surroundings} {block : List DescriptionLine} {t : MapTable} {key : Text}
  {r : Register}

theorem registers_group (h : (readRegister block).register = some r) :
    (s.group block).registers = s.front ++ r :: s.back := by
  simp [group, h]

theorem Describes.mem (enclosed : Enclosed block) (h : s.Describes block t key) :
    ∃ m, t.get? key = some m ∧ (m.groups.map Group.name).Nodup ∧ s.group block ∈ m.groups := by
  obtain ⟨lines, same, place⟩ := h
  refine ⟨_, place, (parse_wellFormed lines).names, ?_⟩
  rw [parse_eq_ofDescription, same]
  exact group_mem enclosed

theorem Describes.registerAt? (enclosed : Enclosed block) (h : s.Describes block t key)
    (read : (readRegister block).register = some r) :
    registerAt? t key s.name s.front.length = some r := by
  obtain ⟨m, place, names, member⟩ := h.mem enclosed
  unfold RegisterMap.registerAt?
  rw [place, Option.bind_some, show s.name = (s.group block).name from rfl,
    group?_of_mem names member, Option.bind_some, registers_group read]
  simp

/-- Resolution puts what the register of the block becomes at its place. -/
theorem Describes.registerAt?_resolve (enclosed : Enclosed block) (h : s.Describes block t key)
    (read : (readRegister block).register = some r) :
    RegisterMap.registerAt? (resolve t) key s.name s.front.length =
      some (resolveRegister (exported? t) s.uses r).register := by
  obtain ⟨m, place, names, member⟩ := h.mem enclosed
  have names' : ((resolveMap (exported? t) m).groups.map Group.name).Nodup := by
    simpa [resolveMap, Function.comp_def, resolveGroup] using names
  have member' : (resolveGroup (exported? t) (s.group block)).1 ∈
      (resolveMap (exported? t) m).groups := List.mem_map_of_mem member
  unfold RegisterMap.registerAt? resolve
  rw [Table.get?_mapValues, place, Option.map_some, Option.bind_some,
    show s.name = ((resolveGroup (exported? t) (s.group block)).1).name from rfl,
    group?_of_mem names' member', Option.bind_some]
  have registers : ((resolveGroup (exported? t) (s.group block)).1).registers =
      (s.front ++ r :: s.back).map fun r => (resolveRegister (exported? t) s.uses r).register := by
    rw [← registers_group read]
    exact List.map_map
  rw [registers]
  simp

theorem resolveGroup_congr {exports : Text → Option (List ConcreteRegister)}
    {block' : List DescriptionLine} {r r' : Register} {tags : List Text}
    {warnings warnings' : List ParseWarning} (read : readRegister block = ⟨some r, tags, warnings⟩)
    (read' : readRegister block' = ⟨some r', tags, warnings'⟩)
    (register : (resolveRegister exports s.uses r).register =
      (resolveRegister exports s.uses r').register)
    (added : (resolveRegister exports s.uses r).tags = (resolveRegister exports s.uses r').tags) :
    (resolveGroup exports (s.group block)).1 = (resolveGroup exports (s.group block')).1 := by
  simp [resolveGroup, group, read, read', register, added]

/-- Two blocks whose group becomes the same give the same map. -/
theorem Describes.resolve_eq {block' : List DescriptionLine} {key' : Text}
    (enclosed : Enclosed block) (enclosed' : Enclosed block') (h : s.Describes block t key)
    (h' : s.Describes block' t key')
    (same : (resolveGroup (exported? t) (s.group block)).1 =
      (resolveGroup (exported? t) (s.group block')).1) :
    (resolve t).get? key = (resolve t).get? key' := by
  obtain ⟨lines, cut, place⟩ := h
  obtain ⟨lines', cut', place'⟩ := h'
  have groups := forall₂_groups (R := fun a b =>
    (resolveGroup (exported? t) a).1 = (resolveGroup (exported? t) b).1) enclosed enclosed'
    (fun a b => congrArg Group.name) (fun _ => rfl) same
  rw [← List.forall₂_map_right_iff, ← List.forall₂_map_left_iff] at groups
  have equal := (congrFun₂ List.forall₂_eq_eq_eq _ _).mp groups
  have map : resolveMap (exported? t) (parse lines).1 =
      resolveMap (exported? t) (parse lines').1 := by
    rw [parse_eq_ofDescription, parse_eq_ofDescription, cut, cut']
    rw [ofDescription_lines enclosed, ofDescription_lines enclosed'] at equal ⊢
    exact congrArg (RegisterMap.mk · none .empty) equal
  unfold resolve
  rw [Table.get?_mapValues, Table.get?_mapValues, place, place', Option.map_some, Option.map_some,
    map]

end Surroundings

/-! ### One import -/

theorem splice_eq_of_fields {r : ImportedRegister} {d : ConcreteRegister} {group : Text}
    (name : r.name = d.name) (parameters : d.parameters = fieldParameters d.fields)
    (fields : (splice r d group).1.fields = d.fields) : (splice r d group).1 = d := by
  have shape : (splice r d group).1 = { d with
      name := r.name, fields := (splice r d group).1.fields
      parameters := fieldParameters (splice r d group).1.fields } := rfl
  rw [shape, fields, name, ← parameters]

theorem mem_resolveWarnings {t : MapTable} {w : ImportWarning} (known : ∀ u, w ≠ .unknownGroup u) :
    w ∈ resolveWarnings t ↔ ∃ m ∈ t.values, ∃ g ∈ m.groups, ∃ r ∈ g.registers,
      w ∈ (resolveRegister (exported? t) g.uses r).warnings := by
  have own (g : Group) : w ∈ (resolveGroup (exported? t) g).2 ↔
      ∃ r ∈ g.registers, w ∈ (resolveRegister (exported? t) g.uses r).warnings := by
    have unknown : w ∉ (g.uses.filter fun u => (exported? t u).isNone).map .unknownGroup := by
      intro told
      obtain ⟨u, -, rfl⟩ := List.mem_map.mp told
      exact known u rfl
    unfold resolveGroup
    simp only [List.mem_append, unknown, false_or, List.flatMap_map, List.mem_flatMap]
  unfold resolveWarnings
  simp only [List.mem_flatMap, own, List.flatMap_assoc]

theorem mem_warnings_splice {r : ImportedRegister} {d : ConcreteRegister} {group : Text}
    {w : ImportWarning} : w ∈ (splice r d group).2 ↔
      ∃ name, .imported name ∈ r.fields ∧ d.fields.find? (·.name == name) = none ∧
        w = .fieldNotFound name d.name group := by
  unfold splice
  simp only [List.flatMap_map, List.mem_flatMap]
  constructor
  · rintro ⟨f, hf, told⟩
    cases f with
    | concrete f => cases told
    | imported name =>
      cases found : d.fields.find? (·.name == name) with
      | none =>
        rw [selectField_missing found] at told
        exact ⟨name, hf, found, List.mem_singleton.mp told⟩
      | some f =>
        rw [selectField_found found] at told
        cases told
  · rintro ⟨name, hf, missing, rfl⟩
    refine ⟨_, hf, ?_⟩
    rw [selectField_missing missing]
    exact List.mem_singleton.mpr rfl

/-! ### What the declaration exports -/

namespace Declaration

variable {p : Declaration} {t : MapTable} {parentKey : Text}

theorem find?_group (parent : p.around.Describes p.block t parentKey)
    (alone : ∀ key m, t.get? key = some m → key ≠ parentKey →
      ∀ g ∈ m.groups, g.name ≠ p.around.name) :
    (t.values.flatMap RegisterMap.groups).find? (·.name == p.around.name) =
      some (p.around.group p.block) := by
  obtain ⟨m, place, names, member⟩ := parent.mem p.enclosed
  refine find?_name_of_unique
    (List.mem_flatMap.mpr ⟨m, Table.mem_values_of_get? place, member⟩) fun g hg named => ?_
  obtain ⟨m', hm', inside⟩ := List.mem_flatMap.mp hg
  obtain ⟨⟨key, m'⟩, entry, rfl⟩ := List.mem_map.mp hm'
  have place' := Table.get?_eq_some_iff.mpr entry
  by_cases same : key = parentKey
  · obtain rfl : m = m' := Option.some.inj (place.symm.trans (same ▸ place'))
    exact List.inj_on_of_nodup_map names inside member named
  · exact absurd named (alone key m' place' same g inside)

theorem exported (parent : p.around.Describes p.block t parentKey)
    (alone : ∀ key m, t.get? key = some m → key ≠ parentKey →
      ∀ g ∈ m.groups, g.name ≠ p.around.name) :
    Holds t p.around.name p.head.name p.register := by
  have shape : (p.around.group p.block).concreteRegisters =
      p.around.front.filterMap Register.concrete? ++
        p.register :: p.around.back.filterMap Register.concrete? := by
    unfold Group.concreteRegisters
    rw [Surroundings.registers_group p.readRegister_block, List.filterMap_append]
    rfl
  refine ⟨p.around.group p.block, isFirst_name_iff.mpr (find?_group parent alone), rfl, _, _,
    shape, fun d hd => ?_⟩
  obtain ⟨r, hr, concrete⟩ := List.mem_filterMap.mp hd
  cases r with
  | imported r => cases concrete
  | concrete r =>
    cases concrete
    exact p.first d hr

/-- An import of the name from the group finds the declared register and no other. -/
theorem eq_register (holds : Holds t p.around.name p.head.name p.register) {d : ConcreteRegister}
    (h : Holds t p.around.name p.head.name d) : d = p.register :=
  Option.some.inj ((holds_iff.mp h).symm.trans (holds_iff.mp holds))

theorem findImport?_ne_none (holds : Holds t p.around.name p.head.name p.register)
    {uses : List Text} {r : ImportedRegister} (name : r.name = p.head.name)
    (source : p.around.name ∈ importSources uses r) : findImport? (exported? t) uses r ≠ none := by
  rw [ne_eq, findImport?_eq_none_iff, name]
  exact fun missing => missing p.around.name source p.register holds

theorem findImport?_register (holds : Holds t p.around.name p.head.name p.register)
    {uses : List Text} {r : ImportedRegister} (name : r.name = p.head.name)
    (used : importSources uses r ≠ []) (only : ∀ u ∈ importSources uses r, u = p.around.name) :
    findImport? (exported? t) uses r = some (p.around.name, p.register) := by
  unfold findImport?
  cases sources : importSources uses r with
  | nil => exact absurd sources used
  | cons u us =>
    obtain rfl := only u (sources ▸ List.mem_cons_self)
    rw [name, List.findSome?_cons, holds_iff.mp holds]
    rfl

/-! ### Selecting the declared fields -/

theorem missing_iff {x : Text} (hx : x ∈ p.names) :
    p.fields.find? (·.name == x) = none ↔ '/' ∈ x := by
  rw [find?_name_eq_none_iff]
  constructor
  · intro absent
    by_contra free
    have stored : x ∈ p.fields.map Field.name := by
      rw [p.map_name_fields]
      exact List.mem_map.mpr ⟨x, hx, storedName_eq_self_iff.mpr free⟩
    obtain ⟨f, hf, named⟩ := List.mem_map.mp stored
    exact absent f hf named
  · intro slash f hf named
    have stored : f.name ∈ p.names.map storedName :=
      p.map_name_fields ▸ List.mem_map_of_mem hf
    obtain ⟨y, -, same⟩ := List.mem_map.mp stored
    rw [← named, ← same] at slash
    exact not_mem_replace_char (by decide) y slash

theorem not_imported_mem (x : Text) : Field.imported x ∉ p.fields := by
  obtain ⟨fields, same, -⟩ := p.exists_fields
  rw [same]
  simp

theorem selectField_eq (distinct : (p.names.map storedName).Nodup)
    (free : ∀ x ∈ p.names, '/' ∉ x) (group : Text) :
    p.names.map (fun x => selectField p.register group (.imported x)) =
      p.fields.map fun f => (f, []) := by
  have names : p.fields.map Field.name = p.names := by
    rw [p.map_name_fields]
    exact (List.map_congr_left fun x hx => storedName_eq_self_iff.mpr (free x hx)).trans
      (List.map_id _)
  have nodup : (p.fields.map Field.name).Nodup := p.map_name_fields ▸ distinct
  rw [← names, List.map_map]
  refine List.map_congr_left fun f hf => ?_
  exact selectField_found (find?_name_of_mem nodup hf) group

/-- Selecting all fields gives back the register exactly when each is kept under its name. -/
theorem splice_selected_iff (distinct : (p.names.map storedName).Nodup) (source : Option Text)
    (group : Text) :
    (splice ⟨p.head.name, source, p.names.map .imported⟩ p.register group).1 = p.register ↔
      ∀ x ∈ p.names, '/' ∉ x := by
  constructor
  · intro same x hx slash
    have nonempty : (p.names.map Field.imported).isEmpty = false := by
      rw [List.isEmpty_eq_false_iff_exists_mem]
      exact ⟨_, List.mem_map_of_mem hx⟩
    have fields : _ = p.fields := congrArg ConcreteRegister.fields same
    simp only [splice, nonempty, Bool.false_eq_true, if_false, List.map_map] at fields
    -- what is not found stays an import, which a declaration has none of
    refine not_imported_mem x (fields ▸ List.mem_map.mpr ⟨x, hx, ?_⟩)
    exact congrArg Prod.fst (selectField_missing ((missing_iff hx).mpr slash) group)
  · intro free
    refine splice_eq_of_fields rfl rfl ?_
    have selected := congrArg (List.map Prod.fst) (selectField_eq distinct free group)
    simp only [List.map_map, Function.comp_def, List.map_id'] at selected
    unfold splice
    simp only [List.map_map, Function.comp_def, selected]
    split <;> rfl

/-- No import of the name is left where the group is used. -/
theorem registerNotFound_not_mem (holds : Holds t p.around.name p.head.name p.register)
    {groups : List Text} (used : p.around.name ∈ groups) :
    ImportWarning.registerNotFound p.head.name groups ∉ resolveWarnings t := by
  intro h
  obtain ⟨m, -, g, -, r, -, told⟩ := (mem_resolveWarnings (by simp)).mp h
  cases r with
  | concrete r => cases told
  | imported r =>
    cases source : findImport? (exported? t) g.uses r with
    | none =>
      rw [resolveRegister_pending source] at told
      obtain ⟨name, sources⟩ := ImportWarning.registerNotFound.inj (List.mem_singleton.mp told)
      exact findImport?_ne_none holds name.symm (sources ▸ used) source
    | some origin =>
      rw [resolveRegister_replaced source] at told
      obtain ⟨name, -, -, same⟩ := mem_warnings_splice.mp told
      cases same

theorem slash_of_fieldNotFound (holds : Holds t p.around.name p.head.name p.register) {x : Text}
    (hx : x ∈ p.names)
    (h : .fieldNotFound x p.head.name p.around.name ∈ resolveWarnings t) : '/' ∈ x := by
  obtain ⟨m, -, g, -, r, -, told⟩ := (mem_resolveWarnings (by simp)).mp h
  cases r with
  | concrete r => cases told
  | imported r =>
    cases source : findImport? (exported? t) g.uses r with
    | none =>
      rw [resolveRegister_pending source] at told
      cases List.mem_singleton.mp told
    | some origin =>
      obtain ⟨group, d⟩ := origin
      rw [resolveRegister_replaced source] at told
      obtain ⟨name, -, missing, same⟩ := mem_warnings_splice.mp told
      obtain ⟨rfl, named, rfl⟩ := ImportWarning.fieldNotFound.inj same
      have held : Holds t p.around.name r.name d := (found_iff.mpr source).2
      rw [← (of_findImport? source).1, ← named] at held
      rw [eq_register holds held] at missing
      exact (missing_iff hx).mp missing

end Declaration

/-- An import that selects the fields of a declared register by all of their names, as they are
written, is replaced by the register that an import without fields is replaced by exactly when no
name has a slash; the fields whose names have one are those reported as not found. -/
theorem selection_agrees_iff {t : MapTable} {p : Declaration} {child : Surroundings}
    {own : List DescriptionLine} {parentKey wholeKey selectingKey : Text}
    (parent : p.around.Describes p.block t parentKey)
    (alone : ∀ key m, t.get? key = some m → key ≠ parentKey →
      ∀ g ∈ m.groups, g.name ≠ p.around.name)
    (plain : '.' ∉ p.head.name) (unaddressed : startsWith "0x" p.head.name = false)
    (bracket : ∀ x ∈ p.names.head?, startsWith "[" x = false)
    (distinct : (p.names.map storedName).Nodup) (used : child.uses ≠ [])
    (only : ∀ u ∈ child.uses, u = p.around.name)
    (imports : ImportLines own p.head.name) (whole : child.Describes own t wholeKey)
    (selecting : child.Describes (own ++ selectionLines p.names) t selectingKey) :
    registerAt? t parentKey p.around.name p.around.front.length = some (.concrete p.register) ∧
    registerAt? t wholeKey child.name child.front.length =
      some (.imported ⟨p.head.name, none, []⟩) ∧
    registerAt? t selectingKey child.name child.front.length =
      some (.imported ⟨p.head.name, none, p.names.map .imported⟩) ∧
    registerAt? (resolve t) wholeKey child.name child.front.length =
      some (.concrete p.register) ∧
    (registerAt? (resolve t) selectingKey child.name child.front.length =
      some (.concrete p.register) ↔ ∀ x ∈ p.names, '/' ∉ x) ∧
    ((∀ x ∈ p.names, '/' ∉ x) → (resolve t).get? selectingKey = (resolve t).get? wholeKey) ∧
    (∀ groups, p.around.name ∈ groups →
      ImportWarning.registerNotFound p.head.name groups ∉ resolveWarnings t) ∧
    ∀ x ∈ p.names, .fieldNotFound x p.head.name p.around.name ∈ resolveWarnings t ↔ '/' ∈ x := by
  have holds := Declaration.exported parent alone
  obtain ⟨readWhole, readSelecting⟩ :=
    imports.readRegister_import plain unaddressed p.names bracket
  have wholeRegister := congrArg RegisterBlock.register readWhole
  have selectingRegister := congrArg RegisterBlock.register readSelecting
  have enclosed := imports.enclosed_selection p.names
  have found (fields : List Field) : resolveRegister (exported? t) child.uses
      (.imported ⟨p.head.name, none, fields⟩) = _ :=
    resolveRegister_replaced (Declaration.findImport?_register holds rfl used only)
  refine ⟨parent.registerAt? p.enclosed p.readRegister_block,
    whole.registerAt? imports.enclosed wholeRegister,
    selecting.registerAt? enclosed selectingRegister, ?_, ?_, fun free => ?_,
    fun _ => Declaration.registerNotFound_not_mem holds, fun x hx => ?_⟩
  · rw [whole.registerAt?_resolve imports.enclosed wholeRegister, found]
    rfl
  · rw [selecting.registerAt?_resolve enclosed selectingRegister, found,
      ← Declaration.splice_selected_iff distinct none p.around.name]
    simp
  · have spliced := (Declaration.splice_selected_iff distinct none p.around.name).mpr free
    refine selecting.resolve_eq enclosed imports.enclosed whole ?_
    refine Surroundings.resolveGroup_congr readSelecting readWhole ?_ ?_
    · rw [found, found, spliced]
      rfl
    · rw [found, found, spliced]
      rfl
  · refine ⟨Declaration.slash_of_fieldNotFound holds hx, fun slash => ?_⟩
    -- the selecting description is the one that tells it
    obtain ⟨m, place, -, member⟩ := selecting.mem enclosed
    refine (mem_resolveWarnings (by simp)).mpr ⟨m, Table.mem_values_of_get? place, _,
      member, .imported ⟨p.head.name, none, p.names.map .imported⟩, ?_, ?_⟩
    · rw [Surroundings.registers_group selectingRegister]
      simp
    · rw [show (child.group (own ++ selectionLines p.names)).uses = child.uses from rfl, found]
      exact mem_warnings_splice.mpr
        ⟨x, List.mem_map_of_mem hx, (Declaration.missing_iff hx).mpr slash, rfl⟩

/-- A register with a field of that name beside another. -/
def controlLines (name : Text) : List Text := [
  "TITLE", "Timer", "timer", "ENDTITLE", "REG", "0x4", "CTRL", "ENDREG",
  "FIELD", "[0] 0x1", "EN", "RW", "ENDFIELD", "FIELD", "[2:1]", name, "RW", "ENDFIELD"]

def controlDeclaration (name : Text) : Declaration where
  around := {
    before := [], header := [], title := "Timer", name := "timer", lead := [.endTitle], after := []
    uses_only := by simp
    same_group := by simp
    closed := by simp
    last := by simp [cutAt] }
  block := [.text "0x4", .text "CTRL", .endReg, .field, .text "[0] 0x1", .text "EN", .text "RW",
    .endField, .field, .text "[2:1]", .text name, .text "RW", .endField]
  enclosed := ⟨by simp, by simp⟩
  content := [.text "0x4", .text "CTRL"]
  closed := rfl
  head := ⟨"CTRL", 4, 0, [], [], none, .empty⟩
  reads := rfl
  names := ["EN", name]
  declares := .cons (.intro rfl rfl rfl (fun n => absurd n (by decide)) rfl)
    (.cons (.intro rfl rfl rfl (fun n => absurd n (by decide)) rfl) .nil)
  first := by simp [Surroundings.front, Surroundings.frontBlocks, cutAt]

def copyAround : Surroundings where
  before := []
  header := [.uses "timer"]
  title := "Copy"
  name := "copy"
  lead := [.endTitle]
  after := []
  uses_only := by simp [DescriptionLine.isUses]
  same_group := by simp
  closed := by simp
  last := by simp [cutAt]

/-- An import of the register, followed by a field block or nothing. -/
def copyLines (fields : List Text) : List Text :=
  List.append ["TITLE", "USING timer", "Copy", "copy", "ENDTITLE", "REG", "CTRL", "ENDREG"] fields

def copyTable (name : Text) : MapTable :=
  let timer : MapTable := Table.empty.insert "timer" (parse (controlLines name)).1
  let whole := timer.insert "whole" (parse (copyLines [])).1
  whole.insert "selecting" (parse (copyLines ["FIELD", "EN", name, "ENDFIELD"])).1

theorem selection_agrees_mode :
    registerAt? (resolve (copyTable "MODE")) "whole" "copy" 0 =
        some (.concrete (controlDeclaration "MODE").register) ∧
      registerAt? (resolve (copyTable "MODE")) "selecting" "copy" 0 =
        some (.concrete (controlDeclaration "MODE").register) ∧
      ∀ x ∈ (controlDeclaration "MODE").names,
        .fieldNotFound x "CTRL" "timer" ∉ resolveWarnings (copyTable "MODE") := by
  have alone : ∀ e ∈ (copyTable "MODE").entries, e.1 ≠ "timer" → ∀ g ∈ e.2.groups,
      g.name ≠ "timer" := by decide +kernel
  have imports : ImportLines [.text "CTRL", .endReg] "CTRL" :=
    ⟨⟨by simp, by simp⟩, by simp, [], rfl⟩
  have parent : (controlDeclaration "MODE").around.Describes (controlDeclaration "MODE").block
      (copyTable "MODE") "timer" :=
    ⟨controlLines "MODE", by decide, by decide +kernel⟩
  have whole : copyAround.Describes [.text "CTRL", .endReg] (copyTable "MODE") "whole" :=
    ⟨copyLines [], by decide, by decide +kernel⟩
  have selecting : copyAround.Describes
      ([.text "CTRL", .endReg] ++ selectionLines (controlDeclaration "MODE").names)
      (copyTable "MODE") "selecting" :=
    ⟨copyLines ["FIELD", "EN", "MODE", "ENDFIELD"], by decide, by decide +kernel⟩
  have free : ∀ x ∈ (controlDeclaration "MODE").names, '/' ∉ x := by decide
  obtain ⟨-, -, -, inWhole, agree, -, -, told⟩ := selection_agrees_iff parent
    (fun key m place => alone (key, m) (Table.get?_eq_some_iff.mp place)) (by decide) (by decide)
    (by decide) (by decide) (by decide) (by decide) imports whole selecting
  exact ⟨inWhole, agree.mpr free, fun x hx h => free x hx ((told x hx).mp h)⟩

/-- A field that is declared as `IN/OUT` is not found under that name. -/
theorem not_selection_agrees_slash :
    (parse (controlLines "IN/OUT")).2 = [] ∧
      resolveWarnings (copyTable "IN/OUT") = [.fieldNotFound "IN/OUT" "CTRL" "timer"] ∧
      registerAt? (resolve (copyTable "IN/OUT")) "selecting" "copy" 0 ≠
        registerAt? (resolve (copyTable "IN/OUT")) "whole" "copy" 0 :=
  ⟨by decide +kernel, by decide +kernel, by decide +kernel⟩

end Gateware.RegisterMap
