import Gateware.RegisterMap.Expansion
import Gateware.RegisterMap.Parser

/-!
# Sessions over a table of register maps

What may happen to a table of maps, in any order and any number of times: maps are described,
removed and owned, imports are resolved, and repeated fields are expanded.
-/

namespace Gateware.RegisterMap

inductive Event where
  /-- The lines of a description, which replaces what stands under the key. -/
  | describe (key : Text) (lines : List Text)
  | remove (key : Text)
  | own (key page : Text)
  | resolve
  | expandAll
  | expand (key : Text)
deriving DecidableEq

/-- The table with the map under the key expanded; a failed expansion changes nothing. -/
def expandKey (t : MapTable) (key : Text) : MapTable :=
  match t.get? key with
  | none => t
  | some m =>
    match expand m with
    | .ok expanded => t.insert key expanded
    | .error _ => t

def step (t : MapTable) : Event → MapTable
  | .describe key lines => t.insert key (parse lines).1
  | .remove key => t.erase key
  | .own key page => t.modify key fun m => m.own page
  | .resolve => resolve t
  | .expandAll => expandAll t
  | .expand key => expandKey t key

def run (t : MapTable) (events : List Event) : MapTable := events.foldl step t

end Gateware.RegisterMap
