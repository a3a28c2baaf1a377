import Gateware.RegisterMap.Basic
import Gateware.RegisterMap.Grammar
import Gateware.RegisterMap.Line

/-!
# Writing register descriptions

A register map as the lines of its description: a title block for each group, a block for each
register, and a block of its own for each field.
-/

namespace Gateware

open Text

def DescriptionLine.written : DescriptionLine → Text
  | .title => "TITLE"
  | .endTitle => "ENDTITLE"
  | .reg => "REG"
  | .endReg => "ENDREG"
  | .field => "FIELD"
  | .endField => "ENDFIELD"
  | .uses group => "USING " ++ group
  | .range line => line
  | .text line => line

def hexLiteral (n : Nat) : Text := "0x" ++ hexadecimal n

/-! ### Reset values -/

namespace FieldDefault

/-- The value that an expression stands for: two apostrophes become a mark in its documented form
and vanish from its generated one. -/
def ofExpression (e : Text) : FieldDefault :=
  .expr (replace "''" "``" e) (replace "0x" "'h" (replace "''" "" e))

/-- Whether a text is read as an expression when it stands at the end of a field line. -/
def isExpression (e : Text) : Bool :=
  !e.isEmpty && trim e == e && (Grammar.hexLiteral? e).isNone

/-- The expressions with the documented form `s`: any mark in it may have been two apostrophes. -/
def spellings : Text → List Text
  | [] => [[]]
  | c :: s =>
    let quoted := match s with
      | '`' :: r => if c = '`' then (spellings r).map fun e => '\'' :: '\'' :: e else []
      | _ => []
    quoted ++ (spellings s).map fun e => c :: e

/-- The text of a reset value; of an expression, the first one with both of its forms. -/
def spelling : FieldDefault → Text
  | .hex value => hexLiteral value
  | .expr short long =>
    ((spellings short).find? fun e => isExpression e && ofExpression e == .expr short long).getD
      short

end FieldDefault

namespace RegisterMap

/-! ### Blocks -/

def rangeText (r : IndexRange) : Text :=
  "WHERE n IS FROM " ++ decimal r.first ++ " TO " ++ decimal r.past

def rangeLines (range : Option IndexRange) : List DescriptionLine :=
  (range.map fun r => DescriptionLine.range (rangeText r)).toList

/-- The bits of a field; a span is written with both of its bounds. -/
def bitsSpec : Bits → Text
  | .span high low => high.text ++ ":" ++ low.text
  | .indexed => "n"

def fieldText (f : ConcreteField) : Text :=
  "[" ++ bitsSpec f.bits ++ "]" ++ (f.reset.map fun d => ' ' :: d.spelling).getD []

/-- The lines of a field block, without the keywords around them. -/
def fieldContent : Field → List DescriptionLine
  | .imported name => [.text name]
  | .concrete f =>
    .text (fieldText f) :: rangeLines f.range ++
      .text f.name :: .text f.access.text :: f.description.map DescriptionLine.text

/-- The address of a register; a register with a range has its step there too. -/
def addressText (r : ConcreteRegister) : Text :=
  match r.range with
  | some _ => hexLiteral r.address ++ " + " ++ hexLiteral r.increment ++ "*n"
  | none => hexLiteral r.address

def importText (r : ImportedRegister) : Text :=
  match r.source with
  | some group => group ++ "." ++ r.name
  | none => r.name

/-- The lines of a register block, without the keywords around them. -/
def registerContent : Register → List DescriptionLine
  | .imported r => [.text (importText r)]
  | .concrete r =>
    .text (addressText r) :: rangeLines r.range ++
      .text r.name :: r.description.map DescriptionLine.text

def fieldLines (f : Field) : List DescriptionLine := fieldContent f ++ [.endField]

/-- The lines after a register line: its own block, and those of its fields. -/
def registerLines (r : Register) : List DescriptionLine :=
  registerContent r ++ .endReg :: r.fields.flatMap fun f => .field :: fieldLines f

def groupLines (g : Group) : List DescriptionLine :=
  g.uses.map DescriptionLine.uses ++ .text g.title :: .text g.name :: .endTitle ::
    g.registers.flatMap fun r => .reg :: registerLines r

/-! ### Maps -/

def description (m : RegisterMap) : List DescriptionLine :=
  m.groups.flatMap fun g => .title :: groupLines g

def describe (m : RegisterMap) : List Text := (description m).map DescriptionLine.written

end RegisterMap

end Gateware
