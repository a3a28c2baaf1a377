import Gateware.Component.Dependency
import Gateware.Component.Merge
import Gateware.Markup.Reader
import Gateware.Text.Case
import Gateware.Text.Letter

/-!
# Reading a component

A component is read from the root element of its description. Buses whose name ends in a clock or
reset marker tell the domain of a signal and are no buses of the component.
-/

namespace Gateware.Component

open Text
open Markup (Element)

inductive Error where
  | markup (cause : Markup.Error)
  | missingNamespace (name : Text)
  deriving DecidableEq

def Error.message : Error → Text
  | .markup .noRoot => "Malformed component: ".toList ++ Markup.Error.noRoot.message
  | .markup cause => cause.message
  | .missingNamespace name => "Required namespace ".toList ++ name ++ " not in file!".toList

def textAt (e : Element) (path : List Text) : Text := (e.textOf? path).getD []

/-- The dependency that the vendor's extensions give to an item. -/
def dependency? (e : Element) (kind : Text) : Option Text :=
  (e.first? ["vendorExtensions", kind ++ "Info".toList, "enablement", "isEnabled"]).bind fun on =>
    (on.attribute? "xilinx:dependency").map Dependency.clean

/-! ### Buses and domains -/

def domainMarkers : List Text := ["_signal_clock", "_signal_reset"]

/-- The domain that the name of a marker bus tells. -/
def domain? (busName : Text) : Option Text :=
  domainMarkers.findSome? fun marker => (cut? marker busName).map Prod.fst

def addDomain (domains : List BusDomain) (signal domain : Text) : List BusDomain :=
  match domains with
  | [] => [⟨signal, [domain]⟩]
  | d :: rest =>
    if d.signal = signal then { d with domains := d.domains ++ [domain] } :: rest
    else d :: addDomain rest signal domain

def portMapOf (e : Element) : PortMap where
  physical := textAt e ["physicalPort", "name"]
  logical := textAt e ["logicalPort", "name"]

def busOf (e : Element) : BusInterface where
  name := textAt e ["name"]
  busType := ((e.first? ["busType"]).bind (·.attribute? "spirit:name")).getD []
  role :=
    if (e.first? ["slave"]).isSome then some .slave
    else if (e.first? ["master"]).isSome then some .master
    else none
  dependency := dependency? e "busInterface"
  portMap := (e.all ["portMaps", "portMap"]).map portMapOf

def busElements (root : Element) : List Element := root.all ["busInterfaces", "busInterface"]

/-- The buses, without the markers of domains. -/
def busesOf (root : Element) : List BusInterface :=
  ((busElements root).filter fun e => (domain? (textAt e ["name"])).isNone).map busOf

/-- The domains of each signal that is the first port of a marker bus. -/
def domainsIn (root : Element) : List BusDomain :=
  (busElements root).foldl (fun domains e =>
    match domain? (textAt e ["name"]),
        (e.first? ["portMaps", "portMap"]).bind (·.textOf? ["physicalPort", "name"]) with
    | some domain, some signal => addDomain domains signal domain
    | _, _ => domains) []

/-! ### Ports -/

def portOf (e : Element) : Port where
  name := textAt e ["name"]
  direction :=
    let direction := textAt e ["wire", "direction"]
    match e.textOf? ["wire", "vector", "left"], e.textOf? ["wire", "vector", "right"] with
    | some left, some right => direction ++ " [".toList ++ left ++ [':'] ++ right ++ [']']
    | _, _ => direction
  dependency := dependency? e "port"

/-- The port map entries of that physical port take its direction and dependency. -/
def attach (p : Port) (b : BusInterface) : BusInterface :=
  { b with portMap := b.portMap.map fun m =>
      if m.physical = p.name then
        { m with direction := some p.direction, dependency := p.dependency }
      else m }

def BusInterface.mapsPort (b : BusInterface) (name : Text) : Bool :=
  b.portMap.any (·.physical == name)

/-- A port goes to every bus that maps it, and stands alone when none does. -/
def placePort (placed : List BusInterface × List Port) (p : Port) :
    List BusInterface × List Port :=
  if placed.1.any (BusInterface.mapsPort · p.name) then (placed.1.map (attach p), placed.2)
  else (placed.1, placed.2 ++ [p])

def placePorts (buses : List BusInterface) (ports : List Port) : List BusInterface × List Port :=
  ports.foldl placePort (buses, [])

/-! ### Parameters -/

/-- Each letter that follows no letter in upper case, the others in lower case. -/
def titleCase (start : Bool) : Text → Text
  | [] => []
  | c :: s => (if start then upperChar c else lowerChar c) ++ titleCase (!isLetter c) s

def capitalize : Text → Text
  | [] => []
  | c :: s => upperChar c ++ s

/-- The digits after `0x`, with an x of either case. -/
def hexDigits? : Text → Option Text
  | '0' :: x :: digits => if x = 'x' ∨ x = 'X' then some digits else none
  | _ => none

def showDefault (format : Option Text) (value : Text) : Text :=
  if format = some "bitString" then
    match hexDigits? value with
    | some digits => "'h".toList ++ upper digits
    | none =>
      match (stripStart? "\"" value).bind (stripEnd? "\"") with
      | some bits => "'b".toList ++ bits
      | none => value
  else if format = some "bool" then titleCase true value
  else value

/-- The type of values of that format, of which one is shown. -/
def kindOf (format shown : Text) : Text :=
  if format = "bitString" then
    if startsWith "'h" shown then "Hex" else ("Bits" : Text)
  else if format = "long" then "Integer"
  else format

/-- A parameter; without a display name it is internal. -/
def parameterOf? (e : Element) : Option Parameter :=
  (e.textOf? ["displayName"]).map fun description =>
    let value := e.first? ["value"]
    let format := value.bind (·.attribute? "spirit:format")
    let shown := showDefault format ((value.map (·.text)).getD [])
    { name := textAt e ["name"]
      description
      default := shown
      kind := format.map (kindOf · shown)
      choiceRef := value.bind (·.attribute? "spirit:choiceRef")
      range :=
        match value.bind (·.attribute? "spirit:minimum"),
            value.bind (·.attribute? "spirit:maximum") with
        | some low, some high =>
          some ("From ".toList ++ low ++ " to ".toList ++ high ++ ['.'])
        | _, _ => none }

def modifyFirst {α : Type} (p : α → Bool) (f : α → α) : List α → List α
  | [] => []
  | a :: l => if p a then f a :: l else a :: modifyFirst p f l

/-- A model parameter of a data type gives the parameter of its name a type, or a capital to the
type it has. -/
def applyModel (parameters : List Parameter) (model : Element) : List Parameter :=
  match model.attribute? "spirit:dataType" with
  | none => parameters
  | some dataType =>
    let dataType : Text :=
      if dataType = "std_logic_vector" then "logic vector" else dataType
    modifyFirst (·.name == textAt model ["name"])
      (fun p => { p with kind := some (capitalize (p.kind.getD (lower dataType))) }) parameters

/-- What stands between the first and the last underscore of a choice's name. -/
def choiceKind (name : Text) : Text :=
  match cut? "_" name with
  | none => []
  | some (_, rest) => ((cutLast? '_' rest).map Prod.fst).getD []

/-- The values of a choice as they are listed; none for an unknown kind of choice. -/
def choiceValues? (choice : Element) : Option (List Text) :=
  let values := choice.all ["enumeration"]
  let kind := choiceKind (textAt choice ["name"])
  if kind = "pairs" then
    some (values.map fun v =>
      (v.attribute? "spirit:text").getD [] ++ " (".toList ++ v.text ++ [')'])
  else if kind = "list" then some (values.map (·.text))
  else none

/-- The parameters that refer to the choice list its values. -/
def applyChoice (parameters : List Parameter) (choice : Element) : List Parameter :=
  match choiceValues? choice with
  | none => parameters
  | some values =>
    parameters.map fun p =>
      if p.choiceRef = some (textAt choice ["name"]) then
        { p with choices := some (joinWith ", " values) }
      else p

/-! ### Components -/

def requiredNamespaces : List Text := ["spirit", "xilinx", "xsi"]

def modelElements (root : Element) : List Element :=
  root.all ["model", "modelParameters", "modelParameter"]

def ofElement (root : Element) : Component :=
  let (buses, ports) := placePorts (busesOf root) ((root.all ["model", "ports", "port"]).map portOf)
  let parameters := (root.all ["parameters", "parameter"]).filterMap parameterOf?
  { name := textAt root ["name"]
    busInterfaces := Lanes.merge buses
    ports := Lanes.merge ports
    busDomains := domainsIn root
    parameters :=
      (root.all ["choices", "choice"]).foldl applyChoice
        ((modelElements root).foldl applyModel parameters)
    modelParameters := (modelElements root).map (textAt · ["name"]) }

def parse (source : Text) : Except Error Component :=
  match Element.parse source with
  | .error e => .error (.markup e)
  | .ok root =>
    match requiredNamespaces.find? fun n => (root.attribute? ("xmlns:".toList ++ n)).isNone with
    | some n => .error (.missingNamespace n)
    | none => .ok (ofElement root)

end Gateware.Component
