import Gateware.Component.Basic
import Gateware.Json.Basic
import Gateware.RegisterMap.Json

/-!
# Components as JSON
-/

namespace Gateware

open Json

def indexJson (index : Nat × Nat) : Json := .arr [.nat index.1, .nat index.2]

def BusRole.toJson : BusRole → Json
  | .master => .str "master"
  | .slave => .str "slave"

def PortMap.toJson (m : PortMap) : Json := .obj [
  ("physical", .str m.physical), ("logical", .str m.logical),
  ("direction", .ofOption .str m.direction), ("dependency", .ofOption .str m.dependency)]

def BusInterface.toJson (b : BusInterface) : Json := .obj [
  ("name", .str b.name), ("bus_type", .str b.busType), ("role", .ofOption BusRole.toJson b.role),
  ("dependency", .ofOption .str b.dependency), ("port_map", .arr (b.portMap.map PortMap.toJson)),
  ("index", .ofOption indexJson b.index)]

def Port.toJson (p : Port) : Json := .obj [
  ("name", .str p.name), ("direction", .str p.direction),
  ("dependency", .ofOption .str p.dependency), ("index", .ofOption indexJson p.index)]

def BusDomain.toJson (d : BusDomain) : Json := .obj [
  ("signal", .str d.signal), ("domains", .strings d.domains)]

/-- The record of a parameter, without the name of its choices. -/
def Parameter.toJson (p : Parameter) : Json := .obj [
  ("name", .str p.name), ("description", .str p.description), ("default", .str p.default),
  ("type", .ofOption .str p.kind), ("choices", .ofOption .str p.choices),
  ("range", .ofOption .str p.range)]

def Component.toJson (c : Component) : Json := .obj [
  ("name", .str c.name), ("bus_interfaces", .arr (c.busInterfaces.map BusInterface.toJson)),
  ("ports", .arr (c.ports.map Port.toJson)),
  ("bus_domains", .arr (c.busDomains.map BusDomain.toJson)),
  ("parameters", .arr (c.parameters.map Parameter.toJson)),
  ("model_parameters", .strings c.modelParameters),
  ("modified", .ofOption .timestamp c.modified)]

end Gateware
