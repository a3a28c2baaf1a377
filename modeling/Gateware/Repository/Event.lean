import Gateware.Library.Reader
import Gateware.Library.Resolution
import Gateware.Project.Closure
import Gateware.RegisterMap.Warning
import Gateware.Repository.Source

/-!
# What happens in a run

A run over a repository tells what it read and wrote, and warns of what it could not use.
-/

namespace Gateware

open Text

/-- A warning of a run; those of a file name it where they do not otherwise tell it. -/
inductive RunWarning where
  | registerMap (path : Path) (w : FileWarning RegisterMap.ParseWarning)
  | import (w : RegisterMap.ImportWarning)
  | expansion (w : RegisterMap.ExpansionWarning)
  | carriers (cause : Script.Error)
  | interfaces (path : Path) (w : FileWarning Interface.Warning)
  | manifest (path : Path) (w : ManifestWarning)
  | manifestRefused (path : Path) (cause : ManifestError)
  | library (w : LibraryWarning)
  | project (w : ProjectWarning)
  | projectRefused (path : Path) (cause : ManifestError)
  deriving DecidableEq

namespace RunWarning

def located (path : Path) (message : Text) : Text := path.text ++ ": " ++ message

def message : RunWarning → Text
  | registerMap path w => located path (w.message RegisterMap.ParseWarning.message)
  | .import w => w.message
  | expansion w => w.message
  | carriers cause => cause.message
  | interfaces path w => located path (w.message Interface.Warning.message)
  | manifest path w => located path w.message
  | manifestRefused path cause => located path cause.message
  | library w => w.message
  | project w => w.message
  | projectRefused path cause => located path cause.message

end RunWarning

inductive RunEvent where
  | scriptRead (path : Path)
  | mapParsed (groups : Nat) (path : Path)
  | importsResolved (maps : Nat)
  | noTestbenches (root : Path)
  | carriersRead (v : Vendor) (boards : List Text)
  | interfacesIndexed (count : Nat)
  | componentParsed (path : Path)
  | manifestRead (m : ParsedManifest)
  | projectRead (key : Text) (scripts libraries : Nat)
  | written (path : Path)

/-- A value with the warnings and the steps that led to it. -/
structure Loaded (α : Type) where
  value : α
  warnings : List RunWarning := []
  events : List RunEvent := []

namespace Loaded

/-- Goes on with the value; warnings and steps follow those before. -/
def andThen {α β : Type} (a : Loaded α) (f : α → Loaded β) : Loaded β :=
  let b := f a.value
  ⟨b.value, a.warnings ++ b.warnings, a.events ++ b.events⟩

def fold {α β : Type} (f : β → α → Loaded β) (init : β) (l : List α) : Loaded β :=
  l.foldl (fun b a => b.andThen (f · a)) ⟨init, [], []⟩

end Loaded

end Gateware
