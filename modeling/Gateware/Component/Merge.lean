import Gateware.Component.Basic
import Gateware.Component.LaneName

/-!
# Merging lanes

Ports and buses of which there is one for each lane are merged into one with a range of lanes. An
item takes part when its own dependency mentions the lane number of its name; the merged item
stands where the first of its lanes stood.
-/

namespace Gateware

/-- An item that can stand for a lane, or for several. -/
class Laned (α : Type) where
  name : α → Text
  dependency : α → Option Text
  index : α → Option (Nat × Nat)
  withIndex : α → Option (Nat × Nat) → α
  /-- The item under the wildcard of its lane name. -/
  generalize : LaneName → α → α

namespace LaneName

/-- A port map within a bus of this lane; its port keeps the number of another lane. -/
def generalizePortMap (n : LaneName) (m : PortMap) : PortMap :=
  { m with
    dependency := m.dependency.map n.generalize
    physical :=
      match ofText? m.physical with
      | some inner => if inner.digits = n.digits then inner.wildcard else m.physical
      | none => m.physical }

end LaneName

instance : Laned Port where
  name := Port.name
  dependency := Port.dependency
  index := Port.index
  withIndex p index := { p with index }
  generalize n p := { p with name := n.wildcard, dependency := p.dependency.map n.generalize }

instance : Laned BusInterface where
  name := BusInterface.name
  dependency := BusInterface.dependency
  index := BusInterface.index
  withIndex b index := { b with index }
  generalize n b :=
    { b with
      name := n.wildcard
      dependency := b.dependency.map n.generalize
      portMap := b.portMap.map n.generalizePortMap }

namespace Lanes

variable {α : Type} [Laned α]

/-- The lane that the item's name tells and its dependency confirms. -/
def confirmed? (a : α) : Option LaneName :=
  (LaneName.ofText? (Laned.name a)).filter fun n =>
    ((Laned.dependency a).map n.isMentioned).getD false

/-- An item of the result, with its wildcard when it stands for lanes. -/
structure Slot (α : Type) where
  item : α
  wildcard : Option Text := none

namespace Slot

def ofLane (a : α) (n : LaneName) : Slot α :=
  ⟨Laned.withIndex (Laned.generalize n a) (some (n.index, n.index)), some n.wildcard⟩

/-- The slot with its range of lanes widened to hold `index`. -/
def widen (s : Slot α) (index : Nat) : Slot α :=
  let range := match Laned.index s.item with
    | some (low, high) => (min low index, max high index)
    | none => (index, index)
  { s with item := Laned.withIndex s.item (some range) }

end Slot

/-- Adds an item: a further lane widens the slot of its wildcard. -/
def add (slots : List (Slot α)) (a : α) : List (Slot α) :=
  match confirmed? a with
  | none => slots ++ [⟨a, none⟩]
  | some n =>
    if slots.any (·.wildcard == some n.wildcard) then
      slots.map fun s => if s.wildcard = some n.wildcard then s.widen n.index else s
    else slots ++ [Slot.ofLane a n]

def merge (items : List α) : List α := (items.foldl add []).map Slot.item

end Lanes

end Gateware
