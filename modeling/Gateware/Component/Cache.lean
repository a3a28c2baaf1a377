import Gateware.Component.Reader
import Gateware.FileTree.Basic

/-!
# Components in files

A component that was read is kept for as long as its file has the same time. Readings are numbered,
so two answers with one number are the same reading. `get_of_error` says that a failure leaves the
cache as it was. A library asks for components without knowing whether they are kept: both ways to
read them are a `ComponentSource`.
-/

namespace Gateware

open Text

namespace Component

inductive FileFailure where
  | unreadable (path : Path) (cause : FileError)
  | content (cause : Error)
  deriving DecidableEq

def FileFailure.message : FileFailure → Text
  | .unreadable path cause => "Failed to read " ++ path.text ++ ": " ++ cause.message
  | .content cause => cause.message

/-- The component that a file describes, with the time of the file. -/
def ofFile (t : FileTree) (path : Path) : Except FileFailure Component :=
  match t.read path with
  | .error cause => .error (.unreadable path cause)
  | .ok source =>
    match parse source with
    | .error cause => .error (.content cause)
    | .ok c => .ok { c with modified := t.modified? path }

end Component

structure CachedComponent where
  modified : Option Timestamp
  component : Component
  number : Nat

/-- `readings` counts the components that were read and kept. -/
structure ComponentCache where
  entries : Table Text CachedComponent := .empty
  readings : Nat := 0

namespace ComponentCache

/-- Paths with the same parts have one entry. -/
def keyOf (path : Path) : Text := (Path.ofParts path.parts).text

/-- The entry of a path, if its file still has the same time. -/
def current? (c : ComponentCache) (t : FileTree) (path : Path) : Option CachedComponent :=
  (c.entries.get? (keyOf path)).filter fun e =>
    e.modified.isSome && e.modified == t.modified? path

/-- The component in a file: the one that is kept, or else one that is read and kept. -/
def get (c : ComponentCache) (t : FileTree) (path : Path) :
    ComponentCache × Except Component.FileFailure CachedComponent :=
  match c.current? t path with
  | some e => (c, .ok e)
  | none =>
    match Component.ofFile t path with
    | .error cause => (c, .error cause)
    | .ok component =>
      let e := ⟨t.modified? path, component, c.readings⟩
      (⟨c.entries.insert (keyOf path) e, c.readings + 1⟩, .ok e)

theorem get_kept {c : ComponentCache} {t : FileTree} {path : Path} {e : CachedComponent}
    (h : c.current? t path = some e) : c.get t path = (c, .ok e) := by
  unfold get
  rw [h]

theorem get_failed {c : ComponentCache} {t : FileTree} {path : Path} {cause : Component.FileFailure}
    (h : c.current? t path = none) (failed : Component.ofFile t path = .error cause) :
    c.get t path = (c, .error cause) := by
  unfold get
  rw [h, failed]

theorem get_read {c : ComponentCache} {t : FileTree} {path : Path} {component : Component}
    (h : c.current? t path = none) (read : Component.ofFile t path = .ok component) :
    c.get t path =
      (⟨c.entries.insert (keyOf path) ⟨t.modified? path, component, c.readings⟩, c.readings + 1⟩,
        .ok ⟨t.modified? path, component, c.readings⟩) := by
  unfold get
  rw [h, read]

theorem get_of_error {c : ComponentCache} {t : FileTree} {path : Path}
    {cause : Component.FileFailure} (h : (c.get t path).2 = .error cause) :
    (c.get t path).1 = c := by
  cases current : c.current? t path with
  | some e => rw [get_kept current]
  | none =>
    cases read : Component.ofFile t path with
    | error failure => rw [get_failed current read]
    | ok component =>
      rw [get_read current read] at h
      cases h

def contains (c : ComponentCache) (path : Path) : Bool := c.entries.contains (keyOf path)

def invalidate (c : ComponentCache) (path : Path) : ComponentCache :=
  { c with entries := c.entries.erase (keyOf path) }

def size (c : ComponentCache) : Nat := c.entries.size

end ComponentCache

/-! ### Sources of components -/

/-- What answers the component in a file; `σ` is what the source keeps between two answers. -/
structure ComponentSource (σ : Type) where
  read : σ → FileTree → Path → σ × Except Component.FileFailure Component

namespace ComponentSource

/-- Reads a component each time that it is asked for. -/
def direct : ComponentSource Unit where
  read _ t path := ((), Component.ofFile t path)

def cached : ComponentSource ComponentCache where
  read c t path :=
    let (c, answer) := c.get t path
    (c, answer.map (·.component))

theorem cached_read (c : ComponentCache) (t : FileTree) (path : Path) :
    cached.read c t path = ((c.get t path).1, (c.get t path).2.map (·.component)) := rfl

end ComponentSource

end Gateware
