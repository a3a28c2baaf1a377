import Gateware.RegisterMap.Parser
import Gateware.RegisterMap.Printer

/-!
# Maps that a description can hold

A description is a list of lines, so a map can be described when no text of it is taken for
something else: a title for a keyword, the name of an import for an address, an expression for a
number. `remarks` lists what reading the description of such a map warns about, with the widths that
the fields keep; `Regular` says without them that there is nothing to warn about.
-/

namespace Gateware

open Text

/-- A line that is read as plain text wherever it stands. -/
structure Plain (line : Text) : Prop where
  nonempty : line ≠ []
  not_keyword : line ∉ List.map String.toList
    ["TITLE", "ENDTITLE", "REG", "ENDREG", "FIELD", "ENDFIELD", "USING"]
  not_uses : startsWith "USING " line = false
  not_range : startsWith "WHERE n IS" line = false

instance (line : Text) : Decidable (Plain line) :=
  decidable_of_iff
    (line ≠ [] ∧
      line ∉ List.map String.toList
        ["TITLE", "ENDTITLE", "REG", "ENDREG", "FIELD", "ENDFIELD", "USING"] ∧
      startsWith "USING " line = false ∧ startsWith "WHERE n IS" line = false)
    ⟨fun ⟨a, b, c, d⟩ => ⟨a, b, c, d⟩, fun ⟨a, b, c, d⟩ => ⟨a, b, c, d⟩⟩

/-- A line that is read back from what is written for it. -/
def DescriptionLine.Legible : DescriptionLine → Prop
  | .uses group => group ≠ [] ∧ trim group = group
  | .range line => startsWith "WHERE n IS" line = true
  | .text line => Plain line
  | _ => True

structure IndexRange.Describable (r : IndexRange) : Prop where
  nonempty : r.first < r.past
  bounded : r.past < indexBound

/-- A bound that is read back: an expression is no number and ends neither the bits nor a bound. -/
def Bound.Describable : Bound → Prop
  | .num n => n < indexBound
  | .expr e => trim e = e ∧ ']' ∉ e ∧ ':' ∉ e ∧ readCount? indexBound e = none

def FieldDefault.Describable : FieldDefault → Prop
  | .hex value => value < wordBound
  | d@(.expr _ _) => ∃ e, FieldDefault.isExpression e = true ∧ FieldDefault.ofExpression e = d

/-- An access type that its own text names; a tag outside of the vocabulary is taken as it is. -/
def Access.Describable (a : Access) : Prop :=
  ∀ tag, a.kind = .unknown tag →
    Plain a.text ∧ AccessKind.ofTag tag = .unknown tag ∧
      (a.volatile = false → endsWith "-V" tag = false)

/-- Bits and a range of indices that go together: one index for each bit, or a span on its own. -/
def Bits.Describable (bits : Bits) (range : Option IndexRange) : Prop :=
  match bits with
  | .indexed => ∃ r, range = some r ∧ r.Describable
  | .span high low =>
    range = none ∧ high.Describable ∧ low.Describable ∧
      ∀ h l, high = .num h → low = .num l → l ≤ h

structure ConcreteField.Describable (f : ConcreteField) : Prop where
  name : Plain f.name
  no_slash : '/' ∉ f.name
  bits : f.bits.Describable f.range
  reset : ∀ d, f.reset = some d → d.Describable
  access : f.access.Describable
  description : ∀ line ∈ f.description, Plain line

def Field.Describable : Field → Prop
  | .imported name => Plain name ∧ startsWith "[" name = false
  | .concrete f => f.Describable

/-- An imported register whose line is read as its source and its name. -/
structure ImportedRegister.Describable (r : ImportedRegister) : Prop where
  line : Plain (RegisterMap.importText r)
  no_address : startsWith "0x" (RegisterMap.importText r) = false
  no_source : r.source = none → '.' ∉ r.name
  source : ∀ group, r.source = some group → '.' ∉ group

structure ConcreteRegister.Describable (r : ConcreteRegister) : Prop where
  name : Plain r.name
  address : r.address < wordBound
  increment : r.increment < wordBound
  fixed : r.range = none → r.increment = 0
  range : ∀ range, r.range = some range → range.Describable
  description : ∀ line ∈ r.description, Plain line
  parameters : r.parameters = fieldParameters r.fields

def Register.Describable : Register → Prop
  | .imported r => r.Describable ∧ ∀ f ∈ r.fields, f.Describable
  | .concrete r => r.Describable ∧ ∀ f ∈ r.fields, f.Describable

def Field.declaredTags : Field → List Text
  | .imported _ => []
  | .concrete f => RegisterMap.accessTags f.access

structure Group.Describable (g : Group) : Prop where
  title : Plain g.title
  name : Plain g.name
  uses : ∀ group ∈ g.uses, group ≠ [] ∧ trim group = group
  registers : ∀ r ∈ g.registers, r.Describable
  accessTypes : g.accessTypes =
    ((g.registers.flatMap Register.fields).flatMap Field.declaredTags).foldl addTag []

structure RegisterMap.Describable (m : RegisterMap) : Prop where
  groups : ∀ g ∈ m.groups, g.Describable
  names : (m.groups.map Group.name).Nodup
  modified : m.modified = none
  owners : m.owners = .empty

/-! ### Remarks -/

/-- The number of times that two apostrophes stand in an expression, from the left. -/
def quoteMarks : Text → Nat
  | '\'' :: '\'' :: s => quoteMarks s + 1
  | _ :: s => quoteMarks s
  | [] => 0

/-- A reset value that fits into the bits, when their number is known, or an expression whose
quotes are closed. -/
def FieldDefault.Fits (width : Option Nat) (d : FieldDefault) : Prop :=
  match d with
  | .hex value => ∀ w ∈ width, value < Nat.pow 2 w
  | .expr _ _ => quoteMarks d.spelling % 2 = 0

instance (width : Option Nat) (d : FieldDefault) : Decidable (d.Fits width) :=
  match d with
  | .hex value => inferInstanceAs (Decidable (∀ w ∈ width, value < Nat.pow 2 w))
  | .expr _ _ => inferInstanceAs (Decidable (_ = _))

def FieldDefault.remarks (register : Text) (bits : Bits) (d : FieldDefault) :
    List RegisterMap.ParseWarning :=
  if d.Fits bits.width? then []
  else match d with
    | .hex _ => [.resetOverflow d.spelling bits register]
    | .expr _ _ => [.unbalancedQuotes d.spelling register]

def Field.remarks (register : Text) : Field → List RegisterMap.ParseWarning
  | .imported _ => []
  | .concrete f =>
    (if f.access.kind.isKnown then [] else [.unknownAccess f.access.text f.name register]) ++
      (f.reset.map (FieldDefault.remarks register f.bits)).getD []

def Register.remarks (r : Register) : List RegisterMap.ParseWarning :=
  r.fields.flatMap (Field.remarks r.name)

def RegisterMap.remarks (m : RegisterMap) : List ParseWarning :=
  m.groups.flatMap fun g => g.registers.flatMap Register.remarks

def ConcreteField.Regular (f : ConcreteField) : Prop :=
  f.access.kind.isKnown = true ∧ ∀ d, f.reset = some d → d.Fits f.bits.size?

def RegisterMap.Regular (m : RegisterMap) : Prop :=
  ∀ g ∈ m.groups, ∀ r ∈ g.registers, ∀ f, Field.concrete f ∈ r.fields → f.Regular

/-- The number of bits of every field fits into a word. -/
def RegisterMap.Measurable (m : RegisterMap) : Prop :=
  ∀ g ∈ m.groups, ∀ r ∈ g.registers, ∀ f, Field.concrete f ∈ r.fields → f.bits.Measurable

end Gateware
