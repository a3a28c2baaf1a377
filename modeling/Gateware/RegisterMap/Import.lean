import Gateware.RegisterMap.Basic
import Gateware.RegisterMap.Warning
import Gateware.Sorted.Table

/-!
# Imports between register maps

Imports are looked up among the concrete registers that the groups hold before any import is
resolved, so one pass over the maps does not see its own results. `keys_resolve` says that the
pass keeps the maps and their keys.
-/

namespace Gateware

/-- Register maps by their keys. -/
abbrev MapTable := Table Text RegisterMap

namespace RegisterMap

/-! ### What can be imported -/

/-- The concrete registers of the first group of that name, maps in the order of their keys. -/
def exported? (t : MapTable) (group : Text) : Option (List ConcreteRegister) :=
  ((t.values.flatMap RegisterMap.groups).find? (·.name == group)).map Group.concreteRegisters

/-- The first concrete register of that name in a group. -/
def exportedRegister? (exports : Text → Option (List ConcreteRegister)) (group name : Text) :
    Option ConcreteRegister :=
  (exports group).bind fun registers => registers.find? (·.name == name)

/-! ### One import -/

/-- The groups in which an import is looked up. -/
def importSources (uses : List Text) (r : ImportedRegister) : List Text :=
  match r.source with
  | some group => [group]
  | none => uses

/-- The register that an import stands for, and the group that it comes from. -/
def findImport? (exports : Text → Option (List ConcreteRegister)) (uses : List Text)
    (r : ImportedRegister) : Option (Text × ConcreteRegister) :=
  (importSources uses r).findSome? fun group =>
    (exportedRegister? exports group r.name).map fun d => (group, d)

/-- The source of an import has its name and is a register of the maps. -/
theorem of_findImport? {t : MapTable} {uses : List Text} {r : ImportedRegister} {group : Text}
    {d : ConcreteRegister} (h : findImport? (exported? t) uses r = some (group, d)) :
    d.name = r.name ∧ ∃ m ∈ t.values, d ∈ m.concreteRegisters := by
  unfold findImport? at h
  obtain ⟨c, -, found⟩ := List.exists_of_findSome?_eq_some h
  obtain ⟨d', held, same⟩ := Option.map_eq_some_iff.mp found
  obtain ⟨rfl, rfl⟩ := Prod.mk.inj same
  obtain ⟨registers, exports, first⟩ := Option.bind_eq_some_iff.mp held
  obtain ⟨g, hg, rfl⟩ := Option.map_eq_some_iff.mp exports
  obtain ⟨m, hm, inside⟩ := List.mem_flatMap.mp (List.mem_of_find?_eq_some hg)
  have named := List.find?_some first
  refine ⟨by simpa using named, m, hm, ?_⟩
  exact List.mem_flatMap.mpr ⟨g, inside, List.mem_of_find?_eq_some first⟩

/-- A selected field: one of the source register, or a field of the importing register's own. -/
def selectField (d : ConcreteRegister) (group : Text) (f : Field) : Field × List ImportWarning :=
  match f with
  | .imported name =>
    match d.fields.find? (·.name == name) with
    | some found => (found, [])
    | none => (f, [.fieldNotFound name d.name group])
  | .concrete _ => (f, [])

theorem selectField_found {d : ConcreteRegister} {name : Text} {f : Field}
    (h : d.fields.find? (·.name == name) = some f) (group : Text) :
    selectField d group (.imported name) = (f, []) := by
  simp only [selectField, h]

theorem selectField_missing {d : ConcreteRegister} {name : Text}
    (h : d.fields.find? (·.name == name) = none) (group : Text) :
    selectField d group (.imported name) =
      (.imported name, [.fieldNotFound name d.name group]) := by
  simp only [selectField, h]

theorem selectField_mem (d : ConcreteRegister) (group : Text) (f : Field) :
    (selectField d group f).1 = f ∨ (selectField d group f).1 ∈ d.fields := by
  cases f with
  | concrete f => exact .inl rfl
  | imported name =>
    cases found : d.fields.find? (·.name == name) with
    | none => exact .inl (by rw [selectField_missing found])
    | some first =>
      rw [selectField_found found]
      exact .inr (List.mem_of_find?_eq_some found)

/-- The register that takes the place of an import whose source is `d` in the group `group`. -/
def splice (r : ImportedRegister) (d : ConcreteRegister) (group : Text) :
    ConcreteRegister × List ImportWarning :=
  let selected := r.fields.map (selectField d group)
  let fields := if r.fields.isEmpty then d.fields else selected.map Prod.fst
  ({ d with name := r.name, fields, parameters := fieldParameters fields },
    selected.flatMap Prod.snd)

/-- The tags that an imported field adds to the access types of the group. -/
def importedTags (f : Field) : List Text :=
  match f with
  | .imported _ => []
  | .concrete f =>
    (if f.access.volatile then [AccessKind.v.tag] else []) ++ [f.access.kind.tag]

/-- A register after resolution. -/
structure Resolved where
  register : Register
  tags : List Text
  warnings : List ImportWarning

def resolveRegister (exports : Text → Option (List ConcreteRegister)) (uses : List Text) :
    Register → Resolved
  | .concrete r => ⟨.concrete r, [], []⟩
  | .imported r =>
    match findImport? exports uses r with
    | none => ⟨.imported r, [], [.registerNotFound r.name (importSources uses r)]⟩
    | some (group, d) =>
      let (spliced, warnings) := splice r d group
      ⟨.concrete spliced, spliced.fields.flatMap importedTags, warnings⟩

theorem resolveRegister_pending {exports : Text → Option (List ConcreteRegister)}
    {uses : List Text} {r : ImportedRegister} (h : findImport? exports uses r = none) :
    resolveRegister exports uses (.imported r) =
      ⟨.imported r, [], [.registerNotFound r.name (importSources uses r)]⟩ := by
  simp only [resolveRegister, h]

theorem resolveRegister_replaced {exports : Text → Option (List ConcreteRegister)}
    {uses : List Text} {r : ImportedRegister} {group : Text} {d : ConcreteRegister}
    (h : findImport? exports uses r = some (group, d)) :
    resolveRegister exports uses (.imported r) =
      ⟨.concrete (splice r d group).1, (splice r d group).1.fields.flatMap importedTags,
        (splice r d group).2⟩ := by
  simp only [resolveRegister, h]

/-! ### All imports -/

def resolveGroup (exports : Text → Option (List ConcreteRegister)) (g : Group) :
    Group × List ImportWarning :=
  let unknown := (g.uses.filter fun u => (exports u).isNone).map ImportWarning.unknownGroup
  let resolved := g.registers.map (resolveRegister exports g.uses)
  ({ g with
     registers := resolved.map Resolved.register
     accessTypes := (resolved.flatMap Resolved.tags).foldl addTag g.accessTypes },
    unknown ++ resolved.flatMap Resolved.warnings)

def resolveMap (exports : Text → Option (List ConcreteRegister)) (m : RegisterMap) : RegisterMap :=
  { m with groups := m.groups.map fun g => (resolveGroup exports g).1 }

/-- The maps with their imports resolved. -/
def resolve (t : MapTable) : MapTable := t.mapValues fun _ => resolveMap (exported? t)

/-- What resolving the imports cannot find. -/
def resolveWarnings (t : MapTable) : List ImportWarning :=
  (t.values.flatMap RegisterMap.groups).flatMap fun g => (resolveGroup (exported? t) g).2

theorem keys_resolve (t : MapTable) : (resolve t).keys = t.keys := by
  simp [resolve, Table.keys, Table.mapValues, Function.comp_def]

theorem values_resolve (t : MapTable) :
    (resolve t).values = t.values.map (resolveMap (exported? t)) := by
  simp [resolve, Table.values, Table.mapValues]

end RegisterMap

end Gateware
