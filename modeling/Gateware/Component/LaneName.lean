import Gateware.Text.Blank
import Gateware.Text.Numeral

/-!
# Names of lanes

Generated ports and buses carry the number of their lane in their names, such as `data_tx_12_p`
or `adc_data_i3`. A dependency that mentions the number as a word of its own confirms that the
number is a lane.
-/

namespace Gateware

open Text

/-- A name cut at its lane number: `wildcard` has a star in place of the digits. -/
structure LaneName where
  wildcard : Text
  digits : Text
  index : Nat
deriving DecidableEq, Repr

namespace LaneName

/-- Lane numbers fit in 32 bits. -/
def indexBound : Nat := Nat.pow 2 32

/-- The polarity at the end of a name, and what stands before it. -/
def cutPolarity (name : Text) : Text × Text :=
  match stripEnd? "_p" name with
  | some r => (r, "_p")
  | none =>
    match stripEnd? "_n" name with
    | some r => (r, "_n")
    | none => (name, [])

/-- What stands before the digits at the end, and the digits. -/
def cutDigits (name : Text) : Text × Text :=
  (trimEndBy isDecDigit name, (name.reverse.takeWhile isDecDigit).reverse)

/-- The words that may stand between the last underscore and the number. -/
def kinds : List Text := [[], "i", "q", "phy"]

/-- What stands before a lane number: an underscore and a kind at its end, all on one line. -/
def isStem (stem : Text) : Bool :=
  kinds.any (fun kind => endsWith ('_' :: kind) stem) && !stem.contains '\n'

def ofText? (name : Text) : Option LaneName :=
  let (numbered, polarity) := cutPolarity name
  let (stem, digits) := cutDigits numbered
  if isStem stem then
    (readNat? 10 indexBound digits).map fun index => ⟨stem ++ ['*'] ++ polarity, digits, index⟩
  else none

/-! ### Mentions in a dependency -/

/-- A mention of the number: blanks before it, and blanks, the end or a closing parenthesis after
it. Answers the text after it. -/
def mention? (digits : Text) (s : Text) : Option Text :=
  match s with
  | [] => none
  | c :: r =>
    if isBlank c then
      (stripStart? digits (r.dropWhile isBlank)).bind fun after =>
        match after with
        | [] => some []
        | a :: rest =>
          if isBlank a then some (rest.dropWhile isBlank)
          else if a = ')' then some rest
          else none
    else none

def isMentioned (n : LaneName) (dependency : Text) : Bool :=
  !(findAll (fun _ s => (mention? n.digits s).map fun r => ((), r)) dependency).isEmpty

def generalize (n : LaneName) (dependency : Text) : Text :=
  substitute (fun _ s => (mention? n.digits s).map fun r => (" * ".toList, r)) dependency

end LaneName

end Gateware
