import Gateware.Proofs.RegisterMap.Pending
import Gateware.Proofs.RegisterMap.Snapshot
import Gateware.Proofs.Text.Numeral
import Gateware.RegisterMap.Package
import Gateware.RegisterMap.Session

/-!
# Repeated fields are written out

`MapExpanded m m'` says what a map becomes when each repeated field is replaced at its place by a
field for each index, and nothing else changes. `expand_exact` states that expansion gives the map
so described, or tells which imports are pending and changes nothing, and that a second expansion
finds nothing to do.
-/

namespace Gateware

open Text

/-- The field `c'` is the repeated field `c` at the index `n`. -/
structure ConcreteField.At (c : ConcreteField) (n : Nat) (c' : ConcreteField) : Prop where
  name : c'.name = substituteIndex c.name (decimal n)
  bits : c'.bits = .span (.num n) (.num n)
  range : c'.range = none
  reset : c'.reset = c.reset
  access : c'.access = c.access
  description : c'.description = c.description

/-- The field is not repeated over any index. -/
def Field.Fixed (f : Field) : Prop :=
  ∀ c r, f = .concrete c → c.range = some r → r.past ≤ r.first

namespace RegisterMap

/-- The fields that take the place of a field: one at each index in rising order, when it is
repeated. -/
inductive FieldExpanded : Field → List Field → Prop
  | kept {f : Field} (fixed : f.Fixed) : FieldExpanded f [f]
  | repeated {c : ConcreteField} {r : IndexRange} {fields : List ConcreteField}
    (range : c.range = some r) (nonempty : r.first < r.past)
    (length : fields.length = r.past - r.first)
    (each : ∀ i (h : i < fields.length), c.At (r.first + i) fields[i]) :
    FieldExpanded (.concrete c) (fields.map .concrete)

/-- What a register becomes; its own range of indices stays. -/
inductive RegisterExpanded : Register → Register → Prop
  | imported {r : ImportedRegister} : RegisterExpanded (.imported r) (.imported r)
  | concrete {r r' : ConcreteRegister} {parts : List (List Field)} (name : r'.name = r.name)
    (address : r'.address = r.address) (increment : r'.increment = r.increment)
    (description : r'.description = r.description) (range : r'.range = r.range)
    (parameters : r'.parameters = r.parameters)
    (expanded : List.Forall₂ FieldExpanded r.fields parts) (fields : r'.fields = parts.flatten) :
    RegisterExpanded (.concrete r) (.concrete r')

structure GroupExpanded (g g' : Group) : Prop where
  title : g'.title = g.title
  name : g'.name = g.name
  uses : g'.uses = g.uses
  accessTypes : g'.accessTypes = g.accessTypes
  registers : List.Forall₂ RegisterExpanded g.registers g'.registers

structure MapExpanded (m m' : RegisterMap) : Prop where
  modified : m'.modified = m.modified
  owners : m'.owners = m.owners
  groups : List.Forall₂ GroupExpanded m.groups m'.groups

/-! ### Names at an index -/

theorem decimal_inj {a b : Nat} (h : decimal a = decimal b) : a = b := by
  have read (n : Nat) (below : n < a + b + 1) : readNat? 10 (a + b + 1) (decimal n) = some n :=
    readNat?_decimal below
  have same := read a (by omega)
  rw [h, read b (by omega)] at same
  exact (Option.some.inj same).symm

theorem substituteIndex_inj {name i j : Text} (h : 'n' ∈ name)
    (same : substituteIndex name i = substituteIndex name j) : i = j := by
  rcases substituteIndex_cases name with ⟨absent, -⟩ | ⟨before, after, -, -, written⟩
  · exact absurd h absent
  · rw [written, written] at same
    exact List.append_cancel_left (List.append_cancel_right same)

/-- The fields at the indices of a range have different names if these show the index. -/
theorem names_nodup {f : Field} {fields : List Field} (h : FieldExpanded f fields)
    (placeholder : 'n' ∈ f.name) : (fields.map Field.name).Nodup := by
  cases h with
  | kept fixed => simp
  | @repeated c r fields range nonempty length each =>
    rw [List.map_map, List.nodup_iff_pairwise_ne, List.pairwise_map, List.pairwise_iff_getElem]
    intro i j hi hj before same
    have names : substituteIndex c.name (decimal (r.first + i)) =
        substituteIndex c.name (decimal (r.first + j)) :=
      (each i hi).name.symm.trans (same.trans (each j hj).name)
    have := decimal_inj (substituteIndex_inj placeholder names)
    omega

/-! ### Fields -/

theorem at_iff {c c' : ConcreteField} {n : Nat} : c.At n c' ↔ c' = fieldAt c n := by
  constructor
  · intro h
    cases c'
    exact (ConcreteField.mk.injEq ..).mpr
      ⟨h.name, h.bits, h.reset, h.access, h.description, h.range⟩
  · rintro rfl
    exact ⟨rfl, rfl, rfl, rfl, rfl, rfl⟩

theorem expandField_of_fixed {f : Field} (h : f.Fixed) : expandField f = [f] := by
  unfold expandField
  split
  · rfl
  · rename_i c
    split
    · rename_i r given
      have empty : r.isEmpty = true := by
        have := h c r rfl given
        simp only [IndexRange.isEmpty, IndexRange.length, beq_iff_eq]
        omega
      rw [if_pos empty]
    · rfl

theorem expandField_of_range {c : ConcreteField} {r : IndexRange} (given : c.range = some r)
    (nonempty : r.first < r.past) :
    expandField (.concrete c) = (r.indices.map (fieldAt c)).map .concrete := by
  unfold expandField
  simp only [given, IndexRange.isEmpty_eq_false_iff.mpr nonempty, Bool.false_eq_true, if_false,
    List.map_map]
  rfl

theorem fixed_or_repeated (f : Field) :
    f.Fixed ∨ ∃ c r, f = .concrete c ∧ c.range = some r ∧ r.first < r.past := by
  cases f with
  | imported name => exact .inl fun c r same => nomatch same
  | concrete c =>
    cases given : c.range with
    | none =>
      refine .inl fun c' r same range => ?_
      cases same
      rw [given] at range
      cases range
    | some r =>
      by_cases nonempty : r.first < r.past
      · exact .inr ⟨c, r, rfl, given, nonempty⟩
      · refine .inl fun c' r' same range => ?_
        cases same
        cases given.symm.trans range
        exact Nat.le_of_not_lt nonempty

theorem fieldExpanded_iff {f : Field} {fields : List Field} :
    FieldExpanded f fields ↔ fields = expandField f := by
  constructor
  · rintro (⟨fixed⟩ | ⟨range, nonempty, length, each⟩)
    · exact (expandField_of_fixed fixed).symm
    · rename_i c r fields
      rw [expandField_of_range range nonempty]
      congr 1
      refine List.ext_getElem (by simp [length, IndexRange.indices, IndexRange.length]) ?_
      intro i hi _
      rw [at_iff.mp (each i hi), List.getElem_map]
      simp [IndexRange.indices]
  · rintro rfl
    rcases fixed_or_repeated f with fixed | ⟨c, r, rfl, range, nonempty⟩
    · rw [expandField_of_fixed fixed]
      exact .kept fixed
    · rw [expandField_of_range range nonempty]
      refine .repeated range nonempty (by simp [IndexRange.indices, IndexRange.length]) ?_
      intro i hi
      rw [at_iff, List.getElem_map]
      simp [IndexRange.indices]

/-- What stands in the place of a field is repeated no more. -/
theorem fixed_of_mem_expandField {f f' : Field} (h : f' ∈ expandField f) : f'.Fixed := by
  rcases fixed_or_repeated f with fixed | ⟨c, r, rfl, range, nonempty⟩
  · rw [expandField_of_fixed fixed] at h
    exact List.mem_singleton.mp h ▸ fixed
  · rw [expandField_of_range range nonempty] at h
    obtain ⟨c', hc', rfl⟩ := List.mem_map.mp h
    obtain ⟨n, -, rfl⟩ := List.mem_map.mp hc'
    rintro _ _ ⟨⟩ given
    cases given

theorem expandFields_again (fields : List Field) :
    (fields.flatMap expandField).flatMap expandField = fields.flatMap expandField := by
  rw [List.flatMap_assoc]
  refine List.flatMap_congr fun f _ => ?_
  calc (expandField f).flatMap expandField
      = (expandField f).flatMap fun f' => [f'] :=
        List.flatMap_congr fun f' hf' => expandField_of_fixed (fixed_of_mem_expandField hf')
    _ = expandField f := List.flatMap_singleton' _

/-! ### Registers, groups and maps -/

theorem flatten_expanded_iff {fields fields' : List Field} :
    (∃ parts, List.Forall₂ FieldExpanded fields parts ∧ fields' = parts.flatten) ↔
      fields' = fields.flatMap expandField := by
  have each : ∀ f ∈ fields, ∀ part, FieldExpanded f part ↔ part = expandField f :=
    fun f _ part => fieldExpanded_iff
  simp only [forall₂_iff_eq_map each, exists_eq_left, List.flatMap_def]

theorem registerExpanded_iff {r r' : Register} : RegisterExpanded r r' ↔ r' = expandRegister r := by
  constructor
  · rintro (_ | ⟨name, address, increment, description, range, parameters, expanded, fields⟩)
    · rfl
    · rename_i r r' parts
      have same := flatten_expanded_iff.mp ⟨parts, expanded, fields⟩
      cases r'
      exact congrArg Register.concrete ((ConcreteRegister.mk.injEq ..).mpr
        ⟨name, address, increment, description, same, range, parameters⟩)
  · rintro rfl
    cases r with
    | imported r => exact .imported
    | concrete r =>
      obtain ⟨parts, expanded, fields⟩ := flatten_expanded_iff.mpr
        (rfl : r.fields.flatMap expandField = _)
      exact .concrete rfl rfl rfl rfl rfl rfl expanded fields

theorem groupExpanded_iff {g g' : Group} : GroupExpanded g g' ↔ g' = expandGroup g := by
  have each : ∀ r ∈ g.registers, ∀ r', RegisterExpanded r r' ↔ r' = expandRegister r :=
    fun r _ r' => registerExpanded_iff
  constructor
  · intro h
    cases g'
    exact (Group.mk.injEq ..).mpr
      ⟨h.title, h.name, h.uses, (forall₂_iff_eq_map each).mp h.registers, h.accessTypes⟩
  · rintro rfl
    exact ⟨rfl, rfl, rfl, rfl, (forall₂_iff_eq_map each).mpr rfl⟩

theorem mapExpanded_iff {m m' : RegisterMap} :
    MapExpanded m m' ↔ m' = { m with groups := m.groups.map expandGroup } := by
  have each : ∀ g ∈ m.groups, ∀ g', GroupExpanded g g' ↔ g' = expandGroup g :=
    fun g _ g' => groupExpanded_iff
  constructor
  · intro h
    cases m'
    exact (RegisterMap.mk.injEq ..).mpr
      ⟨(forall₂_iff_eq_map each).mp h.groups, h.modified, h.owners⟩
  · rintro rfl
    exact ⟨rfl, rfl, (forall₂_iff_eq_map each).mpr rfl⟩

theorem expandGroup_again (g : Group) : expandGroup (expandGroup g) = expandGroup g := by
  have register (r : Register) : expandRegister (expandRegister r) = expandRegister r := by
    cases r with
    | imported r => rfl
    | concrete r => simp only [expandRegister, expandFields_again]
  unfold expandGroup
  simp only [List.map_map, Function.comp_def, register]

/-! ### Maps with and without pending imports -/

theorem isResolved_iff_pending {m : RegisterMap} : m.isResolved = true ↔ m.pending = [] := by
  unfold isResolved
  rw [List.isEmpty_iff, unresolved_eq_map_text, List.map_eq_nil_iff]

theorem expand_of_pending {m : RegisterMap} (h : m.pending ≠ []) :
    m.expand = .error ⟨m.pending.map Pending.text⟩ := by
  unfold expand
  rw [if_neg (isResolved_iff_pending.not.mpr h), unresolved_eq_map_text]

theorem expand_of_resolved {m : RegisterMap} (h : m.pending = []) :
    m.expand = .ok { m with groups := m.groups.map expandGroup } := by
  unfold expand
  rw [if_pos (isResolved_iff_pending.mpr h)]

theorem importName?_expandField {f f' : Field} (h : f.importName? = none)
    (mem : f' ∈ expandField f) : f'.importName? = none := by
  cases f with
  | imported name => cases h
  | concrete c =>
    unfold expandField at mem
    split at mem
    · rw [List.mem_singleton.mp mem]
      rfl
    · split at mem
      · split at mem
        · rw [List.mem_singleton.mp mem]
          rfl
        · obtain ⟨n, -, rfl⟩ := List.mem_map.mp mem
          rfl
      · rw [List.mem_singleton.mp mem]
        rfl

theorem pending_expandRegister {group : Text} {r : Register} (h : r.pending group = []) :
    (expandRegister r).pending group = [] := by
  cases r with
  | imported r => cases h
  | concrete r =>
    simp only [Register.pending, List.map_eq_nil_iff, List.filterMap_eq_nil_iff] at h
    simp only [expandRegister, Register.pending, List.map_eq_nil_iff, List.filterMap_eq_nil_iff]
    intro f hf
    obtain ⟨f', hf', expanded⟩ := List.mem_flatMap.mp hf
    exact importName?_expandField (h f' hf') expanded

theorem pending_expandGroups {m : RegisterMap} (h : m.pending = []) :
    { m with groups := m.groups.map expandGroup }.pending = [] := by
  simp only [pending, Group.pending, List.flatMap_eq_nil_iff] at h ⊢
  intro g hg r hr
  obtain ⟨g', hg', rfl⟩ := List.mem_map.mp hg
  obtain ⟨r', hr', rfl⟩ := List.mem_map.mp hr
  exact pending_expandRegister (h g' hg' r' hr')

theorem concreteRegisters_expandGroups (m : RegisterMap) :
    { m with groups := m.groups.map expandGroup }.concreteRegisters =
      m.concreteRegisters.map fun r => { r with fields := r.fields.flatMap expandField } := by
  have inGroup (g : Group) : (expandGroup g).concreteRegisters =
      g.concreteRegisters.map fun r => { r with fields := r.fields.flatMap expandField } := by
    unfold Group.concreteRegisters expandGroup
    rw [List.filterMap_map, List.map_filterMap]
    refine List.filterMap_congr fun r _ => ?_
    cases r <;> rfl
  unfold concreteRegisters
  rw [List.flatMap_map, List.map_flatMap]
  exact congrArg (List.flatMap · m.groups) (funext inGroup)

/-- What a map is after the expansion of all of a table. -/
def settled (m : RegisterMap) : RegisterMap :=
  match m.expand with
  | .ok expanded => expanded
  | .error _ => m

theorem settled_of_pending {m : RegisterMap} (h : m.pending ≠ []) : m.settled = m := by
  unfold settled
  rw [expand_of_pending h]

theorem settled_of_resolved {m : RegisterMap} (h : m.pending = []) :
    m.settled = { m with groups := m.groups.map expandGroup } := by
  unfold settled
  rw [expand_of_resolved h]

theorem isResolved_settled (m : RegisterMap) : m.settled.isResolved = m.pending.isEmpty := by
  rw [Bool.eq_iff_iff, isResolved_iff_pending, List.isEmpty_iff]
  by_cases h : m.pending = []
  · rw [settled_of_resolved h]
    exact iff_of_true (pending_expandGroups h) h
  · rw [settled_of_pending h]

theorem mem_parameters_settled {m : RegisterMap} {p : Text} :
    p ∈ m.settled.parameters ↔ ∃ r ∈ m.concreteRegisters, p ∈ r.parameters := by
  have own : p ∈ m.parameters ↔ ∃ r ∈ m.concreteRegisters, p ∈ r.parameters := by
    unfold parameters
    rw [KeySet.mem_ofList, List.mem_flatMap]
    rfl
  rw [← own]
  by_cases h : m.pending = []
  · unfold parameters
    rw [settled_of_resolved h, concreteRegisters_expandGroups, List.flatMap_map]
  · rw [settled_of_pending h]

theorem get?_expandAll_eq (t : MapTable) (key : Text) :
    (expandAll t).get? key = (t.get? key).map settled := Table.get?_mapValues

theorem groups_settled_iff {P : Group → Prop} (h : ∀ g, P (expandGroup g) ↔ P g) (m : RegisterMap) :
    (∀ g ∈ m.settled.groups, P g) ↔ ∀ g ∈ m.groups, P g := by
  by_cases pending : m.pending = []
  · rw [settled_of_resolved pending]
    simp only [List.forall_mem_map, h]
  · rw [settled_of_pending pending]

/-- A property of groups that expansion neither gives nor takes holds of a table when it holds of
the expanded one. -/
theorem groups_expandAll_iff {P : Group → Prop} (h : ∀ g, P (expandGroup g) ↔ P g) (t : MapTable) :
    (∀ m ∈ (expandAll t).values, ∀ g ∈ m.groups, P g) ↔ ∀ m ∈ t.values, ∀ g ∈ m.groups, P g := by
  have values : (expandAll t).values = t.values.map settled := by
    simp only [Table.values, expandAll, Table.mapValues, List.map_map]
    rfl
  rw [values]
  simp only [List.forall_mem_map, groups_settled_iff h]

theorem unresolved_ne_nil_iff {m : RegisterMap} : m.unresolved ≠ [] ↔ m.pending ≠ [] := by
  rw [unresolved_eq_map_text, Ne, List.map_eq_nil_iff]

/-- Expansion fails exactly when imports are pending: it tells them, and the table stays as it is.
Otherwise each repeated field is replaced by one for each index, with names apart if they show the
index, and a second expansion changes nothing. -/
theorem expand_exact (m : RegisterMap) :
    (∀ e, m.expand = .error e ↔ m.unresolved ≠ [] ∧ e.unresolved = m.unresolved) ∧
      (∀ (t : MapTable) key, t.get? key = some m → m.unresolved ≠ [] →
        step t (.expand key) = t ∧ (expandAll t).get? key = some m) ∧
      (∀ m', m.expand = .ok m' ↔ m.unresolved = [] ∧ MapExpanded m m') ∧
      (∀ f fields, FieldExpanded f fields → 'n' ∈ f.name → (fields.map Field.name).Nodup) ∧
      ∀ m', m.expand = .ok m' → m'.expand = .ok m' ∧ ∀ m'' key stamp, m'.expand = .ok m'' →
        packageLines key m'' stamp = packageLines key m' stamp := by
  refine ⟨fun e => ?_, fun t key held waits => ?_, fun m' => ?_, fun f fields => names_nodup, ?_⟩
  · by_cases pending : m.pending = []
    · rw [expand_of_resolved pending, unresolved_ne_nil_iff]
      exact ⟨nofun, fun h => absurd pending h.1⟩
    · rw [expand_of_pending pending, ← unresolved_eq_map_text, Except.error.injEq, eq_comm]
      refine ⟨?_, fun h => ?_⟩
      · rintro rfl
        exact ⟨unresolved_ne_nil_iff.mpr pending, rfl⟩
      · cases e
        exact congrArg ExpansionError.mk h.2
  · have pending := unresolved_ne_nil_iff.mp waits
    constructor
    · show expandKey t key = t
      unfold expandKey
      simp only [held, expand_of_pending pending]
    · rw [get?_expandAll_eq, held, Option.map_some, settled_of_pending pending]
  · by_cases pending : m.pending = []
    · have none : m.unresolved = [] := by rw [unresolved_eq_map_text, pending, List.map_nil]
      rw [expand_of_resolved pending, Except.ok.injEq, mapExpanded_iff, eq_comm]
      exact ⟨fun same => ⟨none, same⟩, And.right⟩
    · rw [expand_of_pending pending]
      exact ⟨nofun, fun h => absurd h.1 (unresolved_ne_nil_iff.mpr pending)⟩
  · intro m' expanded
    have again : m'.expand = .ok m' := by
      by_cases pending : m.pending = []
      · rw [expand_of_resolved pending] at expanded
        obtain rfl := Except.ok.inj expanded
        rw [expand_of_resolved (pending_expandGroups pending), List.map_map]
        simp only [Function.comp_def, expandGroup_again]
      · rw [expand_of_pending pending] at expanded
        cases expanded
    refine ⟨again, fun m'' key stamp twice => ?_⟩
    rw [Except.ok.inj (twice.symm.trans again)]

/-- A register with a flag for each of three lanes between two plain fields. -/
def flagsDescription : List Text :=
  ["TITLE", "Lanes", "lanes", "ENDTITLE", "REG", "0x4", "FLAGS", "ENDREG",
    "FIELD", "[31] 0x0", "EN", "RW", "ENDFIELD",
    "FIELD", "[n] 0x0", "WHERE n IS FROM 2 TO 5", "LANEn_en", "RO-V", "ENDFIELD",
    "FIELD", "[1:0]", "MODE", "RW", "ENDFIELD"]

theorem expand_exact_flagsDescription :
    (∃ m', (parse flagsDescription).1.expand = .ok m' ∧ MapExpanded (parse flagsDescription).1 m' ∧
      m'.expand = .ok m' ∧ (m'.concreteRegisters.flatMap fun r => r.fields.map Field.name) =
        List.map String.toList ["EN", "LANE2_en", "LANE3_en", "LANE4_en", "MODE"]) ∧
      let t : MapTable := Table.empty.insert "timer" (parse partialDescription).1
      (parse partialDescription).1.unresolved ≠ [] ∧ step t (.expand "timer") = t := by
  have waits : (parse partialDescription).1.unresolved ≠ [] := by decide +kernel
  have none : (parse flagsDescription).1.pending = [] := by decide +kernel
  have expanded := expand_of_resolved none
  obtain ⟨-, -, ok, -, again⟩ := expand_exact (parse flagsDescription).1
  refine ⟨⟨_, expanded, ((ok _).mp expanded).2, (again _ expanded).1, by decide +kernel⟩, waits, ?_⟩
  exact ((expand_exact (parse partialDescription).1).2.1 _ "timer" (by decide +kernel) waits).1

end RegisterMap

end Gateware
