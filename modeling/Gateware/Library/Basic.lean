import Gateware.Path.Normal
import Gateware.Sorted.Set
import Gateware.Sorted.Table
import Gateware.Vendor.Basic
import Gateware.Verilog

/-!
# Libraries

A library has a manifest for each vendor that it can be built with. What the manifests of all its
vendors share is kept apart from what they need on their own.
-/

namespace Gateware

/-- What one vendor's build of a library needs. -/
structure Manifest where
  /-- The name of the top module. -/
  top : Text := []
  dependencies : KeySet Text := .empty
  libraryDependencies : KeySet Text := .empty
  /-- The names of the interfaces that its buses have. -/
  interfaces : KeySet Text := .empty
  /-- The files that define the interfaces, from the library's directory. -/
  interfaceFiles : KeySet Text := .empty
  /-- The directories that define the interfaces. -/
  interfaceDependencies : KeySet Text := .empty
  parameters : Option (List ModuleParameter) := none
deriving DecidableEq

/-- `generic` holds the dependencies that every vendor shares. -/
structure Library where
  name : Text
  vendors : Table Vendor Manifest := .empty
  generic : KeySet Text := .empty

/-- Libraries by their directories below the directory of all libraries. -/
abbrev LibraryTable := Table Text Library

/-- A manifest as it is read, before any name in it is resolved. -/
structure ParsedManifest where
  key : Text
  ipName : Text
  vendor : Vendor
  manifest : Manifest

/-- The file that a dependency names, for a library in the directory `dir` of a repository. -/
def dependencyPath (root dir : Path) (dependency : Text) : Path :=
  match Text.stripStart? Vendor.rootToken dependency with
  | some rest => (root.join (rest.dropWhile (· == '/'))).normalize
  | none => (dir.join dependency).normalize

namespace LibraryTable

/-- Adds a manifest to the library of its directory, which is named by the first of them. -/
def add (t : LibraryTable) (m : ParsedManifest) : LibraryTable :=
  let library := (t.get? m.key).getD { name := m.ipName }
  t.insert m.key { library with vendors := library.vendors.insert m.vendor m.manifest }

def collect (parsed : List ParsedManifest) : LibraryTable := parsed.foldl add .empty

end LibraryTable

end Gateware
