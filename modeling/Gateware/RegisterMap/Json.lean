import Gateware.Json.Basic
import Gateware.RegisterMap.Import

/-!
# Register maps as JSON

The record forms in which register maps are listed.
-/

namespace Gateware

namespace Json

/-- A time as seconds and nanoseconds. -/
def timestamp (t : Timestamp) : Json :=
  .obj [("secs_since_epoch", .num t.seconds), ("nanos_since_epoch", .nat t.nanos)]

end Json

open Json

namespace RegisterMap

def rangeJson (r : IndexRange) : Json := .obj [("start", .nat r.first), ("end", .nat r.past)]

def boundJson : Bound → Json
  | .num n => .obj [("Num", .nat n)]
  | .expr e => .obj [("Expr", .str e)]

def bitsJson : Bits → Json
  | .span high low => .obj [("Span", .obj [("high", boundJson high), ("low", boundJson low)])]
  | .indexed => .str "Indexed"

def resetJson : FieldDefault → Json
  | .hex value => .obj [("Hex", .nat value)]
  | .expr short long => .obj [("Expr", .obj [("short", .str short), ("long", .str long)])]

def accessKindJson : AccessKind → Json
  | .ro => .str "Ro"
  | .wo => .str "Wo"
  | .rw => .str "Rw"
  | .rw1c => .str "Rw1c"
  | .rw1s => .str "Rw1s"
  | .w1s => .str "W1s"
  | .v => .str "V"
  | .na => .str "Na"
  | .unknown tag => .obj [("Unknown", .str tag)]

def accessJson (a : Access) : Json :=
  .obj [("kind", accessKindJson a.kind), ("volatile", .bool a.volatile)]

def fieldJson : Field → Json
  | .imported name => .obj [("kind", .str "import"), ("name", .str name)]
  | .concrete f => .obj [
      ("kind", .str "concrete"), ("name", .str f.name), ("bits", bitsJson f.bits),
      ("default", .ofOption resetJson f.reset), ("access", accessJson f.access),
      ("description", .strings f.description), ("range", .ofOption rangeJson f.range)]

def registerJson : Register → Json
  | .imported r => .obj [
      ("kind", .str "import"), ("name", .str r.name), ("source", .ofOption .str r.source),
      ("fields", .arr (r.fields.map fieldJson))]
  | .concrete r => .obj [
      ("kind", .str "concrete"), ("name", .str r.name), ("address", .nat r.address),
      ("increment", .nat r.increment), ("description", .strings r.description),
      ("fields", .arr (r.fields.map fieldJson)), ("range", .ofOption rangeJson r.range),
      ("parameters", .strings r.parameters.toList)]

def groupJson (g : Group) : Json := .obj [
  ("title", .str g.title), ("tool_name", .str g.name), ("using", .strings g.uses),
  ("registers", .arr (g.registers.map registerJson)), ("access_types", .strings g.accessTypes)]

def toJson (m : RegisterMap) : Json := .obj [
  ("groups", .arr (m.groups.map groupJson)), ("modified", .ofOption .timestamp m.modified),
  ("owners", .strings m.owners.toList)]

end RegisterMap

def MapTable.toJson (t : MapTable) : Json :=
  .obj (t.entries.map fun (key, m) => (key, RegisterMap.toJson m))

end Gateware
