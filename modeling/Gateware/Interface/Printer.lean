import Gateware.Interface

/-!
# Writing interfaces

An interface as the lines of its script: its description as a comment, the call that opens it, and
one call for each port.
-/

namespace Gateware

open Text

/-- What may be left out behind the name of a port. A default value has its place behind the domain,
so a port with a value and no domain has a word for the domain that is missing. -/
def InterfacePort.optionalWords (p : InterfacePort) : List Text :=
  match p.default with
  | some value => [p.domain.getD Interface.noneWord, decimalInt value]
  | none => p.domain.toList

namespace Interface

def portWords (p : InterfacePort) : List Text :=
  portsCall :: p.direction :: decimalInt p.width :: p.name :: p.optionalWords

def portLine (p : InterfacePort) : Text := joinWith " " (portWords p)

def openingLine (name : Text) : Text := joinWith " " [defineCall, name]

def describingLine (description : Text) : Text := "# " ++ description

/-- The lines of an interface. -/
def written (i : Interface) : List Text :=
  i.description.toList.map describingLine ++ openingLine i.name :: i.ports.map portLine

end Interface

end Gateware
