import Gateware.Text.WordChar

/-!
# Package tokens

A build script names a library or an interface by a token with a name and a version between
colons.
-/

namespace Gateware.Vendor

open Text

/-- A version: decimal digits and points. -/
def skipVersion? (s : Text) : Option Text :=
  let isVersionChar := fun c => isDigit c || c == '.'
  match s.takeWhile isVersionChar with
  | [] => none
  | _ => some (s.dropWhile isVersionChar)

/-- The name in a token that opens with `lead`, and what follows the token. -/
def tokenName? (lead s : Text) : Option (Text × Text) := do
  let r ← stripStart? lead s
  let (name, r) ← takeWord? r
  let r ← stripStart? ":" r
  let r ← skipVersion? r
  return (name, r)

def libraryToken? (_ : Option Char) (s : Text) : Option (Text × Text) :=
  tokenName? "analog.com:$VIVADO_IP_LIBRARY:" s

def interfaceToken? (_ : Option Char) (s : Text) : Option (Text × Text) :=
  tokenName? "analog.com:interface:" s

end Gateware.Vendor
