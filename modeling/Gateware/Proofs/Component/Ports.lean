import Gateware.Component.Reader
import Gateware.Proofs.Component.Dependency
import Gateware.Proofs.Markup.RoundTrip
import Gateware.Proofs.Text.Literal
import Mathlib.Data.List.Forall2
import Mathlib.Data.List.Induction

/-!
# Where the ports of a component go

Each port of the model stands on every bus that maps it, or else alone, and a map entry tells what
the last port of its name tells (`parse_eq_ok_places`). `Places` says so of the elements of a
description; the lanes are merged after that.
-/

namespace Gateware.Component

open Text
open Markup (Element)

/-! ### What the elements say -/

/-- The name holds the marker of a clock or a reset. -/
def IsMarker (busName : Text) : Prop :=
  ("_signal_clock" : Text) <:+: busName ∨ ("_signal_reset" : Text) <:+: busName

/-- The last port of a name. -/
def LastNamed (ports : List Port) (name : Text) (p : Port) : Prop :=
  ∃ before after, ports = before ++ p :: after ∧ p.name = name ∧ ∀ q ∈ after, q.name ≠ name

/-- The condition on an item, without wrappers and parentheses. -/
structure HasCondition (e : Element) (kind : Text) (dependency : Option Text) : Prop where
  absent : ((e.first? ["vendorExtensions", kind ++ "Info", "enablement", "isEnabled"]).bind
    (·.attribute? "xilinx:dependency")) = none → dependency = none
  cleaned : ∀ raw, ((e.first? ["vendorExtensions", kind ++ "Info", "enablement", "isEnabled"]).bind
    (·.attribute? "xilinx:dependency")) = some raw →
      ∃ condition, Dependency.Cleans raw condition ∧ dependency = some condition

/-- The port that an element of the model tells; a vector has both its bounds. -/
structure TellsPort (e : Element) (p : Port) : Prop where
  name : p.name = textAt e ["name"]
  scalar : e.textOf? ["wire", "vector", "left"] = none ∨
      e.textOf? ["wire", "vector", "right"] = none →
    p.direction = textAt e ["wire", "direction"]
  vector : ∀ left right, e.textOf? ["wire", "vector", "left"] = some left →
    e.textOf? ["wire", "vector", "right"] = some right →
    p.direction = textAt e ["wire", "direction"] ++ " [" ++ left ++ ":" ++ right ++ "]"
  condition : HasCondition e "port" p.dependency
  single : p.index = none

/-- The entry of a port map, with what the last port of its physical name tells, if there is one. -/
structure TellsEntry (ports : List Port) (e : Element) (m : PortMap) : Prop where
  physical : m.physical = textAt e ["physicalPort", "name"]
  logical : m.logical = textAt e ["logicalPort", "name"]
  told : ∀ p, LastNamed ports m.physical p → m.direction = some p.direction ∧
    m.dependency = p.dependency
  untold : (∀ p ∈ ports, p.name ≠ m.physical) → m.direction = none ∧ m.dependency = none

/-- The bus that an element tells, with what the ports tell its entries. A slave is told first. -/
structure TellsBus (ports : List Port) (e : Element) (b : BusInterface) : Prop where
  name : b.name = textAt e ["name"]
  typed : ∀ t, (e.first? ["busType"]).bind (·.attribute? "spirit:name") = some t → b.busType = t
  untyped : (e.first? ["busType"]).bind (·.attribute? "spirit:name") = none → b.busType = []
  slave : b.role = some .slave ↔ e.all ["slave"] ≠ []
  master : b.role = some .master ↔ e.all ["slave"] = [] ∧ e.all ["master"] ≠ []
  condition : HasCondition e "busInterface" b.dependency
  single : b.index = none
  entries : List.Forall₂ (TellsEntry ports) (e.all ["portMaps", "portMap"]) b.portMap

def Maps (b : BusInterface) (name : Text) : Prop := ∃ m ∈ b.portMap, m.physical = name

instance (b : BusInterface) (name : Text) : Decidable (Maps b name) :=
  inferInstanceAs (Decidable (∃ m ∈ b.portMap, m.physical = name))

instance (busName : Text) : Decidable (IsMarker busName) :=
  inferInstanceAs (Decidable (_ ∨ _))

/-- The ports of the model, the buses that are no markers, and the ports that stand alone, each in
the order of the elements. -/
structure Places (root : Element) (all : List Port) (real : List BusInterface)
    (single : List Port) : Prop where
  ports : List.Forall₂ TellsPort (root.all ["model", "ports", "port"]) all
  buses : List.Forall₂ (TellsBus all)
    ((root.all ["busInterfaces", "busInterface"]).filter fun e => ¬ IsMarker (textAt e ["name"]))
    real
  alone : single = all.filter fun p => ¬ ∃ b ∈ real, Maps b p.name
  /-- A port stands in exactly one of two ways. -/
  somewhere : ∀ p ∈ all, (p ∈ single ∧ ∀ b ∈ real, ¬ Maps b p.name) ∨
    (p ∉ single ∧ ∃ b ∈ real, Maps b p.name)
  /-- A marker takes no port. -/
  unmarked : ∀ p ∈ all, (∀ e ∈ root.all ["busInterfaces", "busInterface"],
    ∀ m ∈ e.all ["portMaps", "portMap"], textAt m ["physicalPort", "name"] = p.name →
      IsMarker (textAt e ["name"])) → p ∈ single

/-! ### Last ports -/

theorem lastNamed_append {ports : List Port} {p : Port} {name : Text} {q : Port} :
    LastNamed (ports ++ [p]) name q ↔
      (p.name = name ∧ q = p) ∨ (p.name ≠ name ∧ LastNamed ports name q) := by
  constructor
  · rintro ⟨before, after, shape, named, later⟩
    rcases List.eq_nil_or_concat after with rfl | ⟨init, last, rfl⟩
    · obtain ⟨-, same⟩ := List.append_inj' shape rfl
      obtain rfl := List.singleton_inj.mp same
      exact .inl ⟨named, rfl⟩
    · rw [List.concat_eq_append, ← List.cons_append, ← List.append_assoc] at shape
      obtain ⟨whole, same⟩ := List.append_inj' shape rfl
      obtain rfl := List.singleton_inj.mp same
      refine .inr ⟨later p (by simp), before, init, whole, named, fun r hr => later r ?_⟩
      exact List.concat_eq_append ▸ List.mem_append_left _ hr
  · rintro (⟨named, rfl⟩ | ⟨other, before, after, rfl, named, later⟩)
    · exact ⟨ports, [], rfl, named, by simp⟩
    · refine ⟨before, after ++ [p], by simp, named, fun r hr => ?_⟩
      rcases List.mem_append.mp hr with hr | hr
      · exact later r hr
      · obtain rfl := List.mem_singleton.mp hr
        exact other

/-! ### One entry -/

/-- The entry after a port. -/
def takePort (m : PortMap) (p : Port) : PortMap :=
  if m.physical = p.name then { m with direction := some p.direction, dependency := p.dependency }
  else m

def takePorts (ports : List Port) (m : PortMap) : PortMap := ports.foldl takePort m

theorem physical_takePort (m : PortMap) (p : Port) : (takePort m p).physical = m.physical := by
  unfold takePort
  split <;> rfl

theorem logical_takePort (m : PortMap) (p : Port) : (takePort m p).logical = m.logical := by
  unfold takePort
  split <;> rfl

theorem takePorts_append (ports : List Port) (p : Port) (m : PortMap) :
    takePorts (ports ++ [p]) m = takePort (takePorts ports m) p := by
  unfold takePorts
  rw [List.foldl_append]
  rfl

theorem physical_takePorts (ports : List Port) (m : PortMap) :
    (takePorts ports m).physical = m.physical := by
  induction ports using List.reverseRecOn with
  | nil => rfl
  | append_singleton ports p ih => rw [takePorts_append, physical_takePort, ih]

theorem logical_takePorts (ports : List Port) (m : PortMap) :
    (takePorts ports m).logical = m.logical := by
  induction ports using List.reverseRecOn with
  | nil => rfl
  | append_singleton ports p ih => rw [takePorts_append, logical_takePort, ih]

/-- The last port of the name decides, whatever came before it. -/
theorem takePorts_told {ports : List Port} {m : PortMap} {p : Port}
    (last : LastNamed ports m.physical p) :
    (takePorts ports m).direction = some p.direction ∧
      (takePorts ports m).dependency = p.dependency := by
  induction ports using List.reverseRecOn with
  | nil =>
    obtain ⟨before, after, shape, -⟩ := last
    exact absurd shape (by simp)
  | append_singleton ports q ih =>
    rw [takePorts_append]
    unfold takePort
    rw [physical_takePorts]
    rcases lastNamed_append.mp last with ⟨named, rfl⟩ | ⟨other, earlier⟩
    · rw [if_pos named.symm]
      exact ⟨rfl, rfl⟩
    · rw [if_neg fun same => other same.symm]
      exact ih earlier

theorem takePorts_untold {ports : List Port} {m : PortMap}
    (none : ∀ p ∈ ports, p.name ≠ m.physical) : takePorts ports m = m := by
  induction ports using List.reverseRecOn with
  | nil => rfl
  | append_singleton ports p ih =>
    have here : p.name ≠ m.physical := none p (by simp)
    rw [takePorts_append, ih fun q hq => none q (List.mem_append_left _ hq)]
    exact if_neg fun same => here same.symm

/-! ### All ports -/

/-- A bus whose entries have taken the ports. -/
def carry (ports : List Port) (b : BusInterface) : BusInterface :=
  { b with portMap := b.portMap.map (takePorts ports) }

theorem carry_nil (b : BusInterface) : carry [] b = b := by
  have same : b.portMap.map (takePorts []) = b.portMap := List.map_id _
  unfold carry
  rw [same]

theorem attach_carry (ports : List Port) (p : Port) (b : BusInterface) :
    attach p (carry ports b) = carry (ports ++ [p]) b := by
  unfold attach carry
  simp only [List.map_map, BusInterface.mk.injEq, true_and, and_true]
  refine List.map_congr_left fun m _ => ?_
  rw [takePorts_append]
  rfl

theorem mapsPort_iff {b : BusInterface} {name : Text} :
    BusInterface.mapsPort b name = true ↔ Maps b name := by
  unfold BusInterface.mapsPort Maps
  rw [List.any_eq_true]
  simp only [beq_iff_eq]

theorem maps_carry {ports : List Port} {b : BusInterface} {name : Text} :
    Maps (carry ports b) name ↔ Maps b name := by
  unfold Maps carry
  simp only [List.mem_map, exists_exists_and_eq_and, physical_takePorts]

theorem carry_unmapped {ports : List Port} {p : Port} {b : BusInterface} (h : ¬ Maps b p.name) :
    carry (ports ++ [p]) b = carry ports b := by
  unfold carry
  simp only [BusInterface.mk.injEq, true_and, and_true]
  refine List.map_congr_left fun m hm => ?_
  rw [takePorts_append]
  unfold takePort
  rw [physical_takePorts]
  exact if_neg fun same => h ⟨m, hm, same⟩

/-- One port after others: to the buses that map it, or else alone. -/
theorem placePort_carry (buses : List BusInterface) (done alone : List Port) (p : Port) :
    placePort (buses.map (carry done), alone) p =
      (buses.map (carry (done ++ [p])),
        alone ++ [p].filter fun p => ¬ ∃ b ∈ buses, Maps b p.name) := by
  have asked : (buses.map (carry done)).any (BusInterface.mapsPort · p.name) = true ↔
      ∃ b ∈ buses, Maps b p.name := by
    simp only [List.any_eq_true, List.mem_map, exists_exists_and_eq_and, mapsPort_iff, maps_carry]
  unfold placePort
  simp only
  by_cases mapped : ∃ b ∈ buses, Maps b p.name
  · rw [if_pos (asked.mpr mapped)]
    simp [mapped, List.map_map, Function.comp_def, attach_carry]
  · have apart : ∀ b ∈ buses, carry done b = carry (done ++ [p]) b :=
      fun b hb => (carry_unmapped fun h => mapped ⟨b, hb, h⟩).symm
    rw [if_neg fun h => mapped (asked.mp h), List.map_congr_left apart,
      List.filter_cons_of_pos (by simpa using mapped), List.filter_nil]

theorem placePorts_eq (buses : List BusInterface) (ports : List Port) :
    placePorts buses ports =
      (buses.map (carry ports), ports.filter fun p => ¬ ∃ b ∈ buses, Maps b p.name) := by
  unfold placePorts
  induction ports using List.reverseRecOn with
  | nil => simp [funext carry_nil]
  | append_singleton ports p ih =>
    rw [List.foldl_append, ih, List.foldl_cons, List.foldl_nil, placePort_carry,
      List.filter_append]

/-! ### Elements -/

theorem hasCondition_dependency? (e : Element) (kind : Text) :
    HasCondition e kind (dependency? e kind) := by
  have same : dependency? e kind =
      ((e.first? ["vendorExtensions", kind ++ "Info", "enablement", "isEnabled"]).bind
        (·.attribute? "xilinx:dependency")).map Dependency.clean := by
    rw [Option.map_bind]
    rfl
  rw [same]
  refine ⟨fun none => by rw [none]; rfl, fun raw some => ?_⟩
  exact ⟨Dependency.clean raw, Dependency.cleans_iff.mpr rfl, by rw [some]; rfl⟩

theorem tellsPort_portOf (e : Element) : TellsPort e (portOf e) := by
  refine ⟨rfl, ?_, ?_, hasCondition_dependency? e "port", rfl⟩
  · intro unbounded
    unfold portOf
    simp only
    split
    · rename_i low high
      rw [low, high] at unbounded
      simp at unbounded
    · rfl
  · intro left right low high
    unfold portOf
    simp only [low, high]
    rfl

theorem domain?_eq_none_iff {name : Text} : domain? name = none ↔ ¬ IsMarker name := by
  have held (marker : Text) : cut? marker name = none ↔ ¬ marker <:+: name := by
    rw [← includes_iff]
    unfold includes
    simp
  unfold domain? domainMarkers IsMarker
  simp only [List.findSome?_eq_none_iff, List.mem_cons, List.not_mem_nil, or_false,
    forall_eq_or_imp, forall_eq, Option.map_eq_none_iff, held, not_or]

theorem isSome_first?_iff {e : Element} {path : List Text} :
    (e.first? path).isSome = true ↔ e.all path ≠ [] := by
  unfold Element.first?
  rw [List.isSome_head?]

theorem role_busOf (e : Element) :
    ((busOf e).role = some .slave ↔ e.all ["slave"] ≠ []) ∧
      ((busOf e).role = some .master ↔ e.all ["slave"] = [] ∧ e.all ["master"] ≠ []) := by
  unfold busOf
  simp only [isSome_first?_iff]
  generalize e.all ["slave"] = slaves
  generalize e.all ["master"] = masters
  cases slaves <;> cases masters <;> simp

theorem tellsBus_carry (ports : List Port) (e : Element) :
    TellsBus ports e (carry ports (busOf e)) := by
  obtain ⟨slave, master⟩ := role_busOf e
  refine ⟨rfl, fun t told => ?_, fun told => ?_, slave, master,
    hasCondition_dependency? e "busInterface", rfl, ?_⟩
  · exact congrArg (·.getD []) told
  · exact congrArg (·.getD []) told
  change List.Forall₂ _ _ (((e.all ["portMaps", "portMap"]).map portMapOf).map (takePorts ports))
  rw [List.map_map, List.forall₂_map_right_iff, List.forall₂_same]
  intro m _
  refine ⟨physical_takePorts ports _, logical_takePorts ports _, fun p last => ?_, fun none => ?_⟩
  · rw [Function.comp_apply, physical_takePorts] at last
    exact takePorts_told last
  · simp only [Function.comp_apply, physical_takePorts] at none ⊢
    rw [takePorts_untold none]
    exact ⟨rfl, rfl⟩

/-! ### Components -/

theorem busesOf_eq (root : Element) :
    busesOf root = ((root.all ["busInterfaces", "busInterface"]).filter fun e =>
      ¬ IsMarker (textAt e ["name"])).map busOf := by
  unfold busesOf busElements
  congr 1
  refine List.filter_congr fun e _ => ?_
  rw [Bool.eq_iff_iff, Option.isNone_iff_eq_none, domain?_eq_none_iff, decide_eq_true_iff]

theorem exists_maps_carry {ports : List Port} {buses : List BusInterface} {name : Text} :
    (∃ b ∈ buses.map (carry ports), Maps b name) ↔ ∃ b ∈ buses, Maps b name := by
  simp only [List.mem_map, exists_exists_and_eq_and, maps_carry]

theorem places_ofElement (root : Element) :
    ∃ ports buses alone, Places root ports buses alone ∧
      (ofElement root).busInterfaces = Lanes.merge buses ∧
      (ofElement root).ports = Lanes.merge alone := by
  generalize model : (root.all ["model", "ports", "port"]).map portOf = ports
  refine ⟨ports, (busesOf root).map (carry ports), _, ⟨?_, ?_, rfl, ?_, ?_⟩, ?_, ?_⟩
  · rw [← model, List.forall₂_map_right_iff, List.forall₂_same]
    exact fun e _ => tellsPort_portOf e
  · rw [busesOf_eq, List.map_map, List.forall₂_map_right_iff, List.forall₂_same]
    exact fun e _ => tellsBus_carry ports e
  · intro p hp
    by_cases mapped : ∃ b ∈ (busesOf root).map (carry ports), Maps b p.name
    · refine .inr ⟨fun alone => ?_, mapped⟩
      exact of_decide_eq_true (List.mem_filter.mp alone).2 mapped
    · exact .inl ⟨List.mem_filter.mpr ⟨hp, decide_eq_true mapped⟩, fun b hb h => mapped ⟨b, hb, h⟩⟩
  · intro p hp only
    refine List.mem_filter.mpr ⟨hp, ?_⟩
    rw [decide_eq_true_iff, exists_maps_carry, busesOf_eq]
    rintro ⟨b, hb, m, hm, same⟩
    obtain ⟨e, he, rfl⟩ := List.mem_map.mp hb
    obtain ⟨entry, hentry, rfl⟩ := List.mem_map.mp hm
    obtain ⟨listed, other⟩ := List.mem_filter.mp he
    exact of_decide_eq_true other (only e listed entry hentry same)
  · unfold ofElement
    rw [placePorts_eq, model]
  · unfold ofElement
    rw [placePorts_eq, model]
    simp only [exists_maps_carry]

theorem ofElement_of_parse {source : Text} {c : Component} (h : parse source = .ok c) :
    ∃ root, Element.parse source = .ok root ∧ c = ofElement root := by
  unfold parse at h
  split at h
  · cases h
  · rename_i root read
    split at h
    · cases h
    · exact ⟨root, read, (Except.ok.inj h).symm⟩

/-- The buses and ports of every component that is read are those of its description with each
model port where it belongs, and then with their lanes merged. -/
theorem parse_eq_ok_places {source : Text} {c : Component} (h : parse source = .ok c) :
    ∃ root ports buses alone, Element.parse source = .ok root ∧ Places root ports buses alone ∧
      c.busInterfaces = Lanes.merge buses ∧ c.ports = Lanes.merge alone := by
  obtain ⟨root, read, rfl⟩ := ofElement_of_parse h
  obtain ⟨ports, buses, alone, places, merged⟩ := places_ofElement root
  exact ⟨root, ports, buses, alone, read, places, merged⟩

/-- An element with a name of its own. -/
def named (tag name : Text) (children : List Element) : Element :=
  ⟨tag, [], [], ⟨"name", [], name, []⟩ :: children⟩

def entryOf (port : Text) : Element :=
  ⟨"portMaps", [], [], [⟨"portMap", [], [], [named "physicalPort" port []]⟩]⟩

def wireOf (direction : Text) (bounds : List Element) : Element :=
  ⟨"wire", [], [], ⟨"direction", [], direction, []⟩ :: bounds⟩

def enabledBy (kind condition : Text) : Element :=
  ⟨"vendorExtensions", [], [], [⟨kind ++ "Info", [], [], [⟨"enablement", [], [],
    [⟨"isEnabled", [("xilinx:dependency", condition)], [], []⟩]⟩]⟩]⟩

/-- Two buses share a port, which the model lists twice; a marker maps the clock. The first bus is a
slave that depends on a wrapped parameter. -/
def clocked : Element :=
  ⟨"component", [("xmlns:spirit", []), ("xmlns:xilinx", []), ("xmlns:xsi", [])], [], [
    ⟨"busInterfaces", [], [], [
      named "busInterface" "s_axi" [⟨"busType", [("spirit:name", "aximm")], [], []⟩,
        ⟨"slave", [], [], []⟩, entryOf "data",
        enabledBy "busInterface" "(spirit:decode(id(WIDTH)) > 8)"],
      named "busInterface" "s_axi_signal_clock" [entryOf "clk"],
      named "busInterface" "m_axis" [entryOf "data"]]⟩,
    ⟨"model", [], [], [⟨"ports", [], [], [
      named "port" "data" [wireOf "in" []],
      named "port" "clk" [wireOf "in" []],
      named "port" "data" [wireOf "out" [
        ⟨"vector", [], [], [⟨"left", [], "W-1", []⟩, ⟨"right", [], "0", []⟩]⟩]]]⟩]⟩]⟩

theorem parse_eq_ok_places_clocked :
    parse (clocked.write .decimal) = .ok (ofElement clocked) ∧
      (∃ root ports buses alone, Element.parse (clocked.write .decimal) = .ok root ∧
        Places root ports buses alone ∧ (ofElement clocked).busInterfaces = Lanes.merge buses ∧
        (ofElement clocked).ports = Lanes.merge alone) ∧
      (ofElement clocked).busInterfaces =
        [⟨"s_axi", "aximm", some .slave, some "WIDTH > 8",
            [⟨"data", [], some "out [W-1:0]", none⟩], none⟩,
          ⟨"m_axis", [], none, none, [⟨"data", [], some "out [W-1:0]", none⟩], none⟩] ∧
      (ofElement clocked).ports = [⟨"clk", "in", none, none⟩] := by
  have written : Element.parse (clocked.write .decimal) = .ok clocked := by
    have whole := Element.parse_write .decimal (e := clocked) (by decide) []
    rwa [List.append_nil] at whole
  have read : parse (clocked.write .decimal) = .ok (ofElement clocked) := by
    unfold parse
    rw [written]
    rfl
  exact ⟨read, parse_eq_ok_places read, by decide +kernel, by decide +kernel⟩

end Gateware.Component
