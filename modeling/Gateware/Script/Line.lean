import Gateware.Text.Blank

/-!
# Logical lines

Build scripts and register descriptions are read line by line. White space in a physical line is
reduced to single spaces; a line that ends in a backslash goes on in the next one, and a line that
opens with a closing bracket or brace belongs to the one before it. `flatten_runs` says that
grouping lines into runs keeps every line in its place.
-/

namespace Gateware.Script

open Text

/-- Spaces after an opening bracket are dropped before the words `list` and `info`. -/
def tighten (s : Text) : Text :=
  replace "[ info" "[info" (replace "[ list" "[list" s)

/-- A physical line with its white space reduced to single spaces between words. -/
def normalizeLine (raw : Text) : Text := tighten (joinWith " " (words raw))

def continues (line : Text) : Bool := endsWith "\\" line

def closes : Text → Bool
  | ']' :: _ => true
  | '}' :: _ => true
  | _ => false

def body (line : Text) : Text :=
  match stripEnd? "\\" line with
  | some b => trimEnd b
  | none => line

/-- The lines grouped into runs, each of which makes one logical line. -/
def runs : List Text → List (List Text)
  | [] => []
  | l :: ls =>
    match ls.head?, runs ls with
    | some next, r :: rs => if continues l || closes next then (l :: r) :: rs else [l] :: r :: rs
    | _, rs => [l] :: rs

theorem flatten_runs (ls : List Text) : (runs ls).flatten = ls := by
  fun_induction runs ls with
  | case1 => rfl
  | case2 => simp_all
  | case3 => simp_all
  | case4 => simp_all

/-- The bodies of a run joined by spaces; empty ones leave nothing behind. -/
def joinRun (run : List Text) : Text :=
  joinWith " " ((run.map body).filter fun b => !b.isEmpty)

/-- The logical lines of normalized physical lines. -/
def joinLines (ls : List Text) : List Text := (runs ls).map joinRun

def logicalLines (source : Text) : List Text := joinLines ((lines source).map normalizeLine)

def commandName? (line : Text) : Option Text :=
  match line.takeWhile (· != ' ') with
  | [] => none
  | w => some w

end Gateware.Script
