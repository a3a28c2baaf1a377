import Gateware.Text.Numeral

/-!
# Errors in markup

The causes for which a document is refused, each with its wording. Positions count bytes: those of
an attribute from the start of its tag's name, those of an entity from the start of its text.
-/

namespace Gateware.Markup

inductive CodeError where
  | signed
  | empty
  | badDigit
  | tooLarge
  | null
  | noCharacter (code : Nat)
  deriving DecidableEq, Repr

inductive Error where
  | unknownBang
  | unclosedInstruction
  | unclosedComment
  | unclosedDoctype
  | unclosedCData
  | unclosedTag
  | missingDoctypeName
  | unmatchedEnd (name : Text)
  | mismatchedEnd (expected found : Text)
  | unknownEntity (first last : Nat) (name : Text)
  | unterminatedEntity (first last : Nat)
  | badCode (cause : CodeError)
  | expectedEq (position : Nat)
  | expectedValue (position : Nat)
  | unquotedValue (position : Nat)
  | expectedQuote (position : Nat) (quote : Char)
  | duplicated (position previous : Nat)
  | noRoot
  deriving DecidableEq, Repr

open Text

def CodeError.message : CodeError → Text
  | .signed => "unexpected number sign"
  | .empty => "cannot parse integer from empty string"
  | .badDigit => "invalid digit found in string"
  | .tooLarge => "number too large to fit in target type"
  | .null => "0x0 character is not permitted in XML"
  | .noCharacter code => "`".toList ++ decimal code ++ "` is not a valid codepoint".toList

namespace Error

/-- The wording for a construct whose end is missing. -/
def notClosed (what terminator : Text) : Text :=
  "syntax error: ".toList ++ what ++ " not closed: `".toList ++ terminator ++
    "` not found before end of input".toList

def located (position : Nat) (message : Text) : Text :=
  "position ".toList ++ decimal position ++ ": ".toList ++ message

def message : Error → Text
  | unknownBang => "syntax error: unknown or missed symbol in markup"
  | unclosedInstruction => notClosed "processing instruction or xml declaration" "?>"
  | unclosedComment => notClosed "comment" "-->"
  | unclosedDoctype => notClosed "DOCTYPE" ">"
  | unclosedCData => notClosed "CDATA" "]]>"
  | unclosedTag => notClosed "tag" ">"
  | missingDoctypeName =>
    "ill-formed document: `<!DOCTYPE>` declaration does not contain a name of a document type"
  | unmatchedEnd name =>
    "ill-formed document: close tag `</".toList ++ name ++ ">` does not match any open tag".toList
  | mismatchedEnd expected found =>
    "ill-formed document: expected `</".toList ++ expected ++ ">`, but `</".toList ++ found ++
      ">` was found".toList
  | unknownEntity first last name =>
    "at ".toList ++ decimal first ++ "..".toList ++ decimal last ++
      ": unrecognized entity `".toList ++ name ++ "`".toList
  | unterminatedEntity first last =>
    "Error while escaping character at range ".toList ++ decimal first ++ "..".toList ++
      decimal last ++ ": Cannot find ';' after '&'".toList
  | badCode cause => "invalid character reference: ".toList ++ cause.message
  | expectedEq p => located p "attribute key must be directly followed by `=` or space"
  | expectedValue p => located p "`=` must be followed by an attribute value"
  | unquotedValue p => located p "attribute value must be enclosed in `\"` or `'`"
  | expectedQuote p quote =>
    located p ("missing closing quote `".toList ++ [quote] ++ "` in attribute value".toList)
  | duplicated p previous =>
    located p ("duplicated attribute, previous declaration at position ".toList ++ decimal previous)
  | noRoot => "no root element"

end Error

end Gateware.Markup
