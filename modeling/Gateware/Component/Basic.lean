import Gateware.Text.Basic
import Gateware.Timestamp

/-!
# Components

A component is a packaged block: buses that bundle ports, ports of its own, the clock and reset
domains of its signals, and parameters.
-/

namespace Gateware

inductive BusRole where
  | master
  | slave
  deriving DecidableEq, Repr

/-- A physical port of the component under the name it has on the bus. -/
structure PortMap where
  physical : Text
  logical : Text
  direction : Option Text := none
  dependency : Option Text := none
deriving DecidableEq, Repr

/-- `index` holds the least and greatest lane of a merged bus. -/
structure BusInterface where
  name : Text
  busType : Text := []
  role : Option BusRole := none
  dependency : Option Text := none
  portMap : List PortMap := []
  index : Option (Nat × Nat) := none
deriving DecidableEq, Repr

/-- `direction` ends in the bounds of a vector; `index` holds the least and greatest lane of a
merged port. -/
structure Port where
  name : Text
  direction : Text
  dependency : Option Text := none
  index : Option (Nat × Nat) := none
deriving DecidableEq, Repr

structure BusDomain where
  signal : Text
  domains : List Text
deriving DecidableEq, Repr

/-- `kind` is the type of the values; `choiceRef` names the list of choices. -/
structure Parameter where
  name : Text
  description : Text
  default : Text
  kind : Option Text := none
  choiceRef : Option Text := none
  choices : Option Text := none
  range : Option Text := none
deriving DecidableEq, Repr

structure Component where
  name : Text
  busInterfaces : List BusInterface := []
  ports : List Port := []
  busDomains : List BusDomain := []
  parameters : List Parameter := []
  /-- Every model parameter by name, in document order. -/
  modelParameters : List Text := []
  modified : Option Timestamp := none
deriving DecidableEq

namespace Component

def busInterface? (c : Component) (name : Text) : Option BusInterface :=
  c.busInterfaces.find? (·.name == name)

def port? (c : Component) (name : Text) : Option Port := c.ports.find? (·.name == name)

def parameter? (c : Component) (name : Text) : Option Parameter :=
  c.parameters.find? (·.name == name)

def domainsOf (c : Component) (signal : Text) : List Text :=
  ((c.busDomains.find? (·.signal == signal)).map (·.domains)).getD []

end Component

end Gateware
