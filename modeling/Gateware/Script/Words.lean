import Gateware.Text.Blank

/-!
# Words of a line

A word ends at white space outside of brackets, braces and quotes, and keeps its delimiters.
`mem_split_ne_nil` says that no word is empty.
-/

namespace Gateware.Script

open Text

/-! ### Splitting -/

structure Nesting where
  depth : Nat := 0
  quoted : Bool := false
deriving DecidableEq

namespace Nesting

/-- White space ends a word when nothing is open. -/
def separates (n : Nesting) (c : Char) : Bool := n.depth == 0 && !n.quoted && isBlank c

/-- Quotes count outside of brackets and braces, and these count outside of quotes. -/
def step (n : Nesting) (c : Char) : Nesting :=
  if c == '"' then if n.depth == 0 then { n with quoted := !n.quoted } else n
  else if n.quoted then n
  else if c == '{' || c == '[' then { n with depth := n.depth + 1 }
  else if c == '}' || c == ']' then { n with depth := n.depth - 1 }
  else n

end Nesting

/-- The pieces between the separating characters, of a line read from a given nesting. -/
def piecesFrom (n : Nesting) : Text → List Text
  | [] => [[]]
  | c :: s =>
    if n.separates c then [] :: piecesFrom n s
    else match piecesFrom (n.step c) s with
      | [] => [[c]]
      | w :: ws => (c :: w) :: ws

/-- The words of a line, delimiters included. -/
def splitWords (line : Text) : List Text := (piecesFrom {} line).filter fun w => !w.isEmpty

theorem mem_split_ne_nil {line w : Text} (h : w ∈ splitWords line) : w ≠ [] := by
  have := (List.mem_filter.1 h).2
  rintro rfl
  simp at this

/-! ### Delimiters -/

/-- The text between two delimiters at its ends. -/
def enclosedBy? (first last : Char) : Text → Option Text
  | [] => none
  | c :: s => if c == first then stripEnd? [last] s else none

/-- A word without one pair of quotes or braces around it. -/
def unquote (word : Text) : Text :=
  let word := trim word
  match enclosedBy? '"' '"' word with
  | some inner => trim inner
  | none =>
    match enclosedBy? '{' '}' word with
    | some inner => trim inner
    | none => word

/-- The text up to the delimiter that closes a group which `depth + 1` delimiters have opened. -/
def untilClosed? (first last : Char) : (depth : Nat) → Text → Option Text
  | _, [] => none
  | depth, c :: s =>
    if c == first then (untilClosed? first last (depth + 1) s).map (c :: ·)
    else if c == last then
      match depth with
      | 0 => some []
      | d + 1 => (untilClosed? first last d s).map (c :: ·)
    else (untilClosed? first last depth s).map (c :: ·)

/-- The text inside the first bracketed `list`, or else inside the first braces. -/
def listBody? (line : Text) : Option Text :=
  match cut? "[list" line with
  | some (_, rest) => untilClosed? '[' ']' 0 rest
  | none =>
    match cut? ['{'] line with
    | some (_, rest) => untilClosed? '{' '}' 0 rest
    | none => none

def listItems (line : Text) : List Text :=
  match listBody? line with
  | some inner => ((splitWords inner).map unquote).filter fun w => !w.isEmpty
  | none => []

end Gateware.Script
