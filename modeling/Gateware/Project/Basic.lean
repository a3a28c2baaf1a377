import Gateware.Library.Index

/-!
# Projects

A project instantiates libraries and uses files outside its directory. `libraries` holds names as
the scripts give them, and keys of libraries once resolved.
-/

namespace Gateware

/-- `files` are seen from the project's directory, in falling order. -/
structure Project where
  name : Text
  vendor : Vendor
  libraries : KeySet Text := .empty
  files : List Text := []
deriving DecidableEq

/-- Projects by their directories below the directory of all projects. -/
abbrev ProjectTable := Table Text Project

/-- The project with its libraries as keys; a name without a library goes. -/
def Project.resolve (index : LibraryIndex) (p : Project) : Project :=
  { p with libraries := .ofList (p.libraries.toList.filterMap (index.closest? p.vendor)) }

def ProjectTable.resolve (t : ProjectTable) (libraries : LibraryTable) : ProjectTable :=
  let index := LibraryIndex.ofTable libraries
  t.mapValues fun _ p => p.resolve index

end Gateware
