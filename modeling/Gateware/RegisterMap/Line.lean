import Gateware.Text.Blank

/-!
# Lines of a register description

Each line of a register description is a keyword that opens or closes a block, names a group whose
registers are imported, gives a range of indices, or is plain text.
-/

namespace Gateware

open Text

inductive DescriptionLine where
  | title | endTitle | reg | endReg | field | endField
  /-- A group to import from; its name may be missing. -/
  | uses (group : Text)
  /-- A range of indices, as it is written. -/
  | range (line : Text)
  | text (line : Text)
deriving DecidableEq

namespace DescriptionLine

def ofText (line : Text) : DescriptionLine :=
  if line = "TITLE" then .title
  else if line = "ENDTITLE" then .endTitle
  else if line = "REG" then .reg
  else if line = "ENDREG" then .endReg
  else if line = "FIELD" then .field
  else if line = "ENDFIELD" then .endField
  else if line = "USING" then .uses []
  else match stripStart? "USING " line with
    | some group => .uses (trim group)
    | none => if startsWith "WHERE n IS" line then .range line else .text line

/-- Whether the line opens or closes a block. -/
def isKeyword : DescriptionLine → Bool
  | .uses _ => false
  | .range _ => false
  | .text _ => false
  | _ => true

def isUses : DescriptionLine → Bool
  | .uses _ => true
  | _ => false

/-- What a line inside a block says; a keyword has no content. -/
def content : DescriptionLine → Text
  | .uses group => "USING " ++ group
  | .range line => line
  | .text line => line
  | _ => []

/-- The lines that are not empty, numbered from one. -/
def number : Nat → List Text → List (Nat × DescriptionLine)
  | _, [] => []
  | n, l :: ls => if l.isEmpty then number (n + 1) ls else (n, ofText l) :: number (n + 1) ls

end DescriptionLine

end Gateware
