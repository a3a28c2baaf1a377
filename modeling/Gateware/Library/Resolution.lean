import Gateware.Library.Index

/-!
# Resolution of libraries

Names in manifests become keys of libraries, directories of interfaces and files as seen from the
library's directory. The names are looked up in the table as it was before, so the order of the
libraries does not matter.
-/

namespace Gateware

open Text

inductive LibraryWarning where
  | libraryNotFound (key : Text) (vendor : Vendor) (name : Text)
  | interfaceNotFound (key name : Text)
  deriving DecidableEq

def LibraryWarning.message : LibraryWarning → Text
  | .libraryNotFound key vendor name =>
    "Library " ++ key ++ ": couldn't resolve " ++ vendor.name ++ " library '" ++ name ++ "'!"
  | .interfaceNotFound key name =>
    "Library " ++ key ++ ": couldn't find interface '" ++ name ++ "'!"

def libraryRoot : Path := ⟨"library"⟩

namespace Library

/-! ### Dependencies -/

def expandRoot (dir : Path) (dependency : Text) : Text :=
  match stripStart? Vendor.rootToken dependency with
  | some rest => (Path.relativeTo ⟨rest.dropWhile (· == '/')⟩ dir).toSlash
  | none => dependency

def isSource (dependency : Text) : Bool :=
  ((Path.mk dependency).extension?.map Vendor.sourceExtensions.contains).getD false

/-- Whether a dependency of a library for one vendor only can serve others too. -/
def isShareable (v : Vendor) (dependency : Text) : Bool :=
  isSource dependency && !Vendor.all.any (fun w => endsWith w.manifestEnd dependency) &&
    !includes v.name dependency

def genericDependencies (vendors : Table Vendor Manifest) : KeySet Text :=
  match vendors.entries with
  | [] => .empty
  | [(v, m)] => m.dependencies.filter (isShareable v)
  | (_, m) :: rest => rest.foldl (fun shared e => shared.inter e.2.dependencies) m.dependencies

/-! ### Names -/

/-- The library names as keys; a name without a library stays. -/
def resolveNames (key : Text) (index : LibraryIndex) (v : Vendor) (m : Manifest) :
    Manifest × List LibraryWarning :=
  ({ m with
      libraryDependencies := m.libraryDependencies.map fun n => (index.keyOf? v n).getD n },
    (m.libraryDependencies.toList.filter fun n => (index.keyOf? v n).isNone).map
      (.libraryNotFound key v))

def interfaceFileNames (name : Text) : List Text := [name ++ ".xml", name ++ "_rtl.xml"]

def addInterface (dir found : Path) (m : Manifest) (name : Text) : Manifest :=
  { m with
    interfaceFiles := (interfaceFileNames name).foldl (fun files file =>
      files.insert ((found.join file).relativeTo dir).toSlash) m.interfaceFiles
    interfaceDependencies :=
      m.interfaceDependencies.insert ((found.after? libraryRoot).getD found).toSlash }

def resolveInterfaces (key : Text) (dir : Path) (interfaces : InterfaceIndex) (m : Manifest) :
    Manifest × List LibraryWarning :=
  m.interfaces.toList.foldl (fun (m, warnings) name =>
    match interfaces.directory? name with
    | some found => (addInterface dir found m name, warnings)
    | none => (m, warnings ++ [.interfaceNotFound key name])) (m, [])

def resolveManifest (key : Text) (dir : Path) (index : LibraryIndex) (interfaces : InterfaceIndex)
    (v : Vendor) (m : Manifest) : Manifest × List LibraryWarning :=
  let (m, warnings) := resolveNames key index v m
  let (m, more) := resolveInterfaces key dir interfaces m
  (m, warnings ++ more)

/-! ### Libraries -/

/-- The library with its dependencies split into shared and own ones. -/
def splitDependencies (dir : Path) (l : Library) : Library :=
  let vendors := l.vendors.mapValues fun _ m =>
    { m with dependencies := m.dependencies.map (expandRoot dir) }
  let generic := genericDependencies vendors
  { l with
    generic
    vendors := vendors.mapValues fun _ m => { m with dependencies := m.dependencies.diff generic } }

def resolve (key : Text) (index : LibraryIndex) (interfaces : InterfaceIndex) (l : Library) :
    Library × List LibraryWarning :=
  let dir := libraryRoot.join key
  let l := splitDependencies dir l
  ({ l with
      vendors := l.vendors.mapValues fun v m =>
        (resolveManifest key dir index interfaces v m).1 },
    l.vendors.entries.flatMap fun e => (resolveManifest key dir index interfaces e.1 e.2).2)

end Library

namespace LibraryTable

def resolve (t : LibraryTable) (interfaces : InterfaceIndex) : LibraryTable :=
  let index := LibraryIndex.ofTable t
  t.mapValues fun key l => (l.resolve key index interfaces).1

def resolveWarnings (t : LibraryTable) (interfaces : InterfaceIndex) : List LibraryWarning :=
  let index := LibraryIndex.ofTable t
  t.entries.flatMap fun e => (e.2.resolve e.1 index interfaces).2

end LibraryTable

end Gateware
