import Gateware.RegisterMap.Bits

/-!
# Warnings about register maps

What is wrong with a description, an import or a map that cannot be expanded, and the text in
which it is told.
-/

namespace Gateware

namespace RegisterMap

inductive ParseWarning where
  | malformedUses
  | malformedTitle
  | duplicateTitle (group : Text)
  | unterminatedRegister
  | emptyRegister
  | malformedRegister (address : Text)
  | steppedWithoutRange (address register : Text)
  | rangeWithoutStep (address register : Text)
  | malformedAddress (address register : Text)
  | emptyRange (line context : Text)
  | malformedRange (line context : Text)
  | fieldOutsideRegister (group : Text)
  | unterminatedField (register : Text)
  | malformedBits (line register : Text)
  | indexedWithoutRange (register : Text)
  | rangeWithoutIndex (bits register : Text)
  | malformedField (line register : Text)
  | unknownAccess (tag field register : Text)
  | invertedBits (bits register : Text)
  | resetOverflow (reset : Text) (bits : Bits) (register : Text)
  | unbalancedQuotes (reset register : Text)
deriving DecidableEq

def ParseWarning.message : ParseWarning → Text
  | .malformedUses => "Malformed using in title entry, skipped!"
  | .malformedTitle => "Malformed title entry, skipped!"
  | .duplicateTitle group => "Duplicate title '" ++ group ++ "', replaced!"
  | .unterminatedRegister => "Malformed register block without ENDREG, skipped!"
  | .emptyRegister => "Empty register block, skipped!"
  | .malformedRegister address =>
    "Malformed register block at address " ++ address ++ ", skipped!"
  | .steppedWithoutRange address register =>
    "Ranged addr " ++ address ++ " without where method at " ++ register ++ "!"
  | .rangeWithoutStep address register =>
    "Static addr " ++ address ++ " with where method at " ++ register ++ "!"
  | .malformedAddress address register =>
    "Malformed register address " ++ address ++ " for register " ++ register ++ "."
  | .emptyRange line context => "Empty where range '" ++ line ++ "' at " ++ context ++ "!"
  | .malformedRange line context => "Malformed where '" ++ line ++ "' at " ++ context ++ "!"
  | .fieldOutsideRegister group => "Field outside of a register in '" ++ group ++ "', skipped!"
  | .unterminatedField register =>
    "Malformed field block without ENDFIELD at reg '" ++ register ++ "', skipped!"
  | .malformedBits line register =>
    "Malformed field bits " ++ line ++ " at reg '" ++ register ++ "', skipped!"
  | .indexedWithoutRange register =>
    "No where method for ranged field n at reg '" ++ register ++ "', skipped!"
  | .rangeWithoutIndex bits register =>
    "Where method with field bits [" ++ bits ++ "] instead of n at reg '" ++ register ++ "'!"
  | .malformedField line register =>
    "Malformed field block " ++ line ++ " at reg '" ++ register ++ "', skipped!"
  | .unknownAccess tag field register =>
    "Malformed access type " ++ tag ++ " for field " ++ field ++ " at reg '" ++ register ++ "'!"
  | .invertedBits bits register =>
    "Inverted field bits [" ++ bits ++ "] at reg '" ++ register ++ "', swapped!"
  | .resetOverflow reset bits register =>
    "Default value '" ++ reset ++ "' overflows field width " ++ bits.text ++ " at reg '" ++
      register ++ "'!"
  | .unbalancedQuotes reset register =>
    "Malformed quoting in default value '" ++ reset ++ "' at reg '" ++ register ++ "'!"

inductive ImportWarning where
  | unknownGroup (group : Text)
  | registerNotFound (register : Text) (groups : List Text)
  | fieldNotFound (field register group : Text)
deriving DecidableEq

def ImportWarning.message : ImportWarning → Text
  | .unknownGroup group => "Couldn't find regmap '" ++ group ++ "'!"
  | .registerNotFound register groups =>
    let places : Text := if groups.isEmpty then "<none>" else Text.joinWith ", " groups
    "Reg " ++ register ++ " in import " ++ places ++ " not found!"
  | .fieldNotFound field register group =>
    "Field " ++ field ++ " in reg " ++ register ++ " from import " ++ group ++ " not found!"

/-- Why a map cannot be expanded: imports that wait for resolution. -/
structure ExpansionError where
  unresolved : List Text
deriving DecidableEq

def ExpansionError.message (e : ExpansionError) : Text :=
  "Unresolved imports: " ++ Text.joinWith ", " e.unresolved

/-- A map that is left as it is, under its key. -/
structure ExpansionWarning where
  key : Text
  error : ExpansionError
deriving DecidableEq

def ExpansionWarning.message (w : ExpansionWarning) : Text :=
  "Regmap '" ++ w.key ++ "' not expanded: " ++ w.error.message

end RegisterMap

end Gateware
