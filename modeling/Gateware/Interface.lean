import Gateware.Script.Words
import Gateware.Text.Numeral

/-!
# Interfaces

A script defines interfaces by calls: one that opens an interface, after which each port is added
to the interface opened last. The comment lines right before an interface describe it.
-/

namespace Gateware

open Text

/-- `domain` is `clock` or `reset` for a port that carries one. -/
structure InterfacePort where
  direction : Text
  width : Int
  name : Text
  domain : Option Text := none
  default : Option Int := none
deriving DecidableEq, Repr

structure Interface where
  name : Text
  description : Option Text := none
  ports : List InterfacePort := []
deriving DecidableEq, Repr

namespace Interface

def defineCall : Text := "adi_if_define"

def portsCall : Text := "adi_if_ports"

def noneWord : Text := "none"

inductive PortError where
  | missingFields
  | badWidth
  | badDefault
  deriving DecidableEq, Repr

inductive Warning where
  | badDefine (line : Text)
  | portOutside (line : Text)
  | badPort (cause : PortError) (line interface : Text)
  deriving DecidableEq, Repr

def PortError.message : PortError → Text
  | .missingFields => "Missing port fields"
  | .badWidth => "Malformed width"
  | .badDefault => "Malformed default"

def Warning.message : Warning → Text
  | .badDefine line => "Malformed '".toList ++ line ++ "', skipped!".toList
  | .portOutside line => "Ports '".toList ++ line ++ "' outside of an interface, skipped!".toList
  | .badPort cause line interface =>
    cause.message ++ " in '".toList ++ line ++ "' of ".toList ++ interface ++ ['!']

/-! ### Reading -/

/-- The word at a place that may be left out. -/
def optionalWord? (words : List Text) (place : Nat) : Option Text :=
  words[place]?.filter (· != noneWord)

/-- Widths are numbers of 32 bits with a sign. -/
def widthBound : Nat := Nat.pow 2 31

/-- Default values are numbers of 64 bits with a sign. -/
def defaultBound : Nat := Nat.pow 2 63

/-- The port that the words after a ports call tell. -/
def portOf (words : List Text) : Except PortError InterfacePort :=
  match words with
  | direction :: width :: name :: rest =>
    match readInt? widthBound width with
    | none => .error .badWidth
    | some width =>
      let port : InterfacePort := { direction, width, name, domain := optionalWord? rest 0 }
      match optionalWord? rest 1 with
      | none => .ok port
      | some d =>
        match readInt? defaultBound d with
        | none => .error .badDefault
        | some d => .ok { port with default := some d }
  | _ => .error .missingFields

/-- The interfaces so far, the last one first, and the comment lines right before. -/
structure Progress where
  opened : List Interface := []
  comment : List Text := []

def describe? (comment : List Text) : Option Text :=
  let text := joinWith " " comment
  if text.isEmpty then none else some text

def readLine (p : Progress) (line : Text) : Progress × List Warning :=
  match line with
  | '#' :: text => ({ p with comment := p.comment ++ [trim text] }, [])
  | _ =>
    match Script.splitWords line with
    | [] => (⟨p.opened, []⟩, [])
    | call :: words =>
      if call = defineCall then
        match words with
        | [] => (⟨p.opened, []⟩, [.badDefine line])
        | name :: _ => (⟨⟨name, describe? p.comment, []⟩ :: p.opened, []⟩, [])
      else if call = portsCall then
        match p.opened with
        | [] => (⟨[], []⟩, [.portOutside line])
        | i :: rest =>
          match portOf words with
          | .ok port => (⟨{ i with ports := i.ports ++ [port] } :: rest, []⟩, [])
          | .error cause => (⟨p.opened, []⟩, [.badPort cause line i.name])
      else (⟨p.opened, []⟩, [])

def readLines (p : Progress) : List Text → List Interface × List Warning
  | [] => (p.opened.reverse, [])
  | line :: rest =>
    let (p, warnings) := readLine p line
    let (interfaces, more) := readLines p rest
    (interfaces, warnings ++ more)

/-- The interfaces that the lines define, in order. -/
def parse (lines : List Text) : List Interface × List Warning := readLines {} lines

end Interface

end Gateware
