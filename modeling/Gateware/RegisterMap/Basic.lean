import Gateware.RegisterMap.Access
import Gateware.RegisterMap.Bits
import Gateware.Sorted.Set
import Gateware.Timestamp

/-!
# Register maps

A register map is a list of groups of registers, and a register a list of fields. A register or a
field that is to be copied from another group is a variant of its own, so a map is resolved when
it holds none of them (`isResolved_iff`).
-/

namespace Gateware

open Text

inductive FieldDefault where
  | hex (value : Nat)
  /-- An expression, as it is documented and as it is generated. -/
  | expr (short long : Text)
deriving DecidableEq

/-! ### Free parameters -/

def builtinFunctions : List Text := ["log2", "clog2", "max", "min"]

/-- The names in an expression that are neither functions nor parts of a based literal; two
apostrophes around a name do not count. -/
def freeParameters (e : Text) : List Text :=
  (pieces (fun c => !(c.isAlphanum || c == '_' || c == '\'')) (replace "''" " " e)).filter fun w =>
    match w with
    | [] => false
    | c :: _ => (c.isAlpha || c == '_') && !w.any (· == '\'') && !builtinFunctions.contains w

def Bound.parameters : Bound → List Text
  | .num _ => []
  | .expr e => freeParameters e

def Bits.parameters : Bits → List Text
  | .span high low => high.parameters ++ low.parameters
  | .indexed => []

/-- An undefined reset value names no parameters. -/
def FieldDefault.parameters : FieldDefault → List Text
  | .hex _ => []
  | .expr short long => if includes "0xX" short then [] else freeParameters long

/-! ### Fields and registers -/

structure ConcreteField where
  name : Text
  bits : Bits
  reset : Option FieldDefault
  access : Access
  description : List Text
  range : Option IndexRange
deriving DecidableEq

namespace ConcreteField

/-- The free parameters of the bounds and of the reset value. -/
def parameters (f : ConcreteField) : KeySet Text :=
  .ofList (f.bits.parameters ++ (f.reset.map FieldDefault.parameters).getD [])

end ConcreteField

inductive Field where
  /-- A field to be copied from the register of the same name in another group. -/
  | imported (name : Text)
  | concrete (f : ConcreteField)
deriving DecidableEq

namespace Field

def name : Field → Text
  | .imported name => name
  | .concrete f => f.name

def importName? : Field → Option Text
  | .imported name => some name
  | .concrete _ => none

def concrete? : Field → Option ConcreteField
  | .imported _ => none
  | .concrete f => some f

def parameters : Field → List Text
  | .imported _ => []
  | .concrete f => f.parameters.toList

end Field

def fieldParameters (fields : List Field) : KeySet Text := .ofList (fields.flatMap Field.parameters)

theorem mem_fieldParameters {fields : List Field} {p : Text} :
    p ∈ fieldParameters fields ↔ ∃ f, Field.concrete f ∈ fields ∧ p ∈ f.parameters := by
  unfold fieldParameters
  rw [KeySet.mem_ofList, List.mem_flatMap]
  constructor
  · rintro ⟨f, mem, hp⟩
    cases f with
    | imported name => cases hp
    | concrete f => exact ⟨f, mem, hp⟩
  · rintro ⟨f, mem, hp⟩
    exact ⟨.concrete f, mem, hp⟩

/-- A register to be copied from another group, with the fields that it selects; none selects
all. -/
structure ImportedRegister where
  name : Text
  source : Option Text
  fields : List Field
deriving DecidableEq

/-- A register at an address, or one at each index of a range; addresses count words of four
bytes. -/
structure ConcreteRegister where
  name : Text
  address : Nat
  increment : Nat
  description : List Text
  fields : List Field
  range : Option IndexRange
  parameters : KeySet Text
deriving DecidableEq

inductive Register where
  | imported (r : ImportedRegister)
  | concrete (r : ConcreteRegister)
deriving DecidableEq

namespace Register

def name : Register → Text
  | .imported r => r.name
  | .concrete r => r.name

def concrete? : Register → Option ConcreteRegister
  | .imported _ => none
  | .concrete r => some r

def fields : Register → List Field
  | .imported r => r.fields
  | .concrete r => r.fields

/-- The qualified names of the imports that wait in a register of the group `group`. -/
def unresolved (group : Text) : Register → List Text
  | .imported r => [group ++ "." ++ r.name]
  | .concrete r =>
    (r.fields.filterMap Field.importName?).map fun f => group ++ "." ++ r.name ++ "." ++ f

end Register

/-! ### Groups and maps -/

structure Group where
  title : Text
  /-- The name by which other groups import from this one. -/
  name : Text
  /-- The groups from which registers are imported, in the order of search. -/
  uses : List Text
  registers : List Register
  /-- The access tags of the fields, each at its first appearance. -/
  accessTypes : List Text
deriving DecidableEq

/-- The tag at the end of the list, unless it is there already. -/
def addTag (tags : List Text) (tag : Text) : List Text :=
  if tags.contains tag then tags else tags ++ [tag]

namespace Group

def concreteRegisters (g : Group) : List ConcreteRegister :=
  g.registers.filterMap Register.concrete?

def unresolved (g : Group) : List Text := g.registers.flatMap (Register.unresolved g.name)

end Group

structure RegisterMap where
  groups : List Group
  modified : Option Timestamp
  /-- The pages that refer to the map. -/
  owners : KeySet Text
deriving DecidableEq

namespace RegisterMap

def empty : RegisterMap := ⟨[], none, .empty⟩

instance : Inhabited RegisterMap := ⟨empty⟩

def group? (m : RegisterMap) (name : Text) : Option Group := m.groups.find? fun g => g.name == name

def concreteRegisters (m : RegisterMap) : List ConcreteRegister :=
  m.groups.flatMap Group.concreteRegisters

theorem mem_concreteRegisters {m : RegisterMap} {r : ConcreteRegister} :
    r ∈ m.concreteRegisters ↔ ∃ g ∈ m.groups, Register.concrete r ∈ g.registers := by
  have own {g : Group} : r ∈ g.concreteRegisters ↔ Register.concrete r ∈ g.registers := by
    unfold Group.concreteRegisters
    rw [List.mem_filterMap]
    constructor
    · rintro ⟨r', hr', same⟩
      cases r' <;> cases same
      exact hr'
    · exact fun h => ⟨.concrete r, h, rfl⟩
  simp only [concreteRegisters, List.mem_flatMap, own]

def parameters (m : RegisterMap) : KeySet Text :=
  .ofList (m.concreteRegisters.flatMap fun r => r.parameters.toList)

/-- The qualified names of the imports that wait for resolution. -/
def unresolved (m : RegisterMap) : List Text := m.groups.flatMap Group.unresolved

/-- The map with one more page that refers to it. -/
def own (m : RegisterMap) (page : Text) : RegisterMap :=
  { m with owners := m.owners.insert page }

def isResolved (m : RegisterMap) : Bool := m.unresolved.isEmpty

theorem isResolved_iff {m : RegisterMap} :
    m.isResolved = true ↔ ∀ g ∈ m.groups, ∀ r ∈ g.registers, r.unresolved g.name = [] := by
  simp [isResolved, unresolved, Group.unresolved]

end RegisterMap

end Gateware
