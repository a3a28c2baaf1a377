import Gateware.Text.Basic

/-!
# Access types

How software may use a field: a tag of a fixed vocabulary, and whether the hardware changes the
field on its own. `kindOfTag_tag` says that every known tag is read back.
-/

namespace Gateware

inductive AccessKind where
  | ro | wo | rw | rw1c | rw1s | w1s | v | na
  | unknown (tag : Text)
deriving DecidableEq

namespace AccessKind

/-- The kind that a tag names; reading and writing alone have a short form. -/
def ofTag (tag : Text) : AccessKind :=
  if tag = "RO" ∨ tag = "R" then .ro
  else if tag = "WO" ∨ tag = "W" then .wo
  else if tag = "RW" then .rw
  else if tag = "RW1C" then .rw1c
  else if tag = "RW1S" then .rw1s
  else if tag = "W1S" then .w1s
  else if tag = "V" then .v
  else if tag = "NA" then .na
  else .unknown tag

def tag : AccessKind → Text
  | .ro => "RO"
  | .wo => "WO"
  | .rw => "RW"
  | .rw1c => "RW1C"
  | .rw1s => "RW1S"
  | .w1s => "W1S"
  | .v => "V"
  | .na => "NA"
  | .unknown tag => tag

def isKnown : AccessKind → Bool
  | .unknown _ => false
  | _ => true

theorem kindOfTag_tag {k : AccessKind} (h : k.isKnown = true) : ofTag k.tag = k := by
  cases k <;> first | rfl | simp [isKnown] at h

end AccessKind

structure Access where
  kind : AccessKind
  volatile : Bool
deriving DecidableEq

namespace Access

/-- The access type that a tag names; a volatile field has a suffix. -/
def ofTag (tag : Text) : Access :=
  match Text.stripEnd? "-V" tag with
  | some base => ⟨.ofTag base, true⟩
  | none => ⟨.ofTag tag, false⟩

def text (a : Access) : Text := if a.volatile then a.kind.tag ++ "-V" else a.kind.tag

end Access

end Gateware
