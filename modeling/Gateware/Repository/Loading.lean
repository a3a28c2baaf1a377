import Gateware.Project.Reader
import Gateware.RegisterMap.Expansion
import Gateware.Repository.Basic
import Gateware.Repository.Event

/-!
# Loading a repository

Every source of one kind is read before names between the sources are resolved.
-/

namespace Gateware.Repository

open Text

def wasRead {ω : Type} (warnings : List (FileWarning ω)) : Bool :=
  warnings.all fun
    | .unread _ => false
    | .content _ => true

/-! ### Register maps -/

def loadMap (t : FileTree) (maps : MapTable) (source : Text × Path) : Loaded MapTable :=
  let (m, warnings) := RegisterMap.ofFile t source.2
  { value := maps.insert source.1 m
    warnings := warnings.map (.registerMap source.2)
    events :=
      if wasRead warnings then
        [.scriptRead source.2, .mapParsed m.groups.length source.2]
      else [] }

/-- The maps with their imports resolved, expanded where that is possible. -/
def finishMaps (maps : MapTable) : Loaded MapTable :=
  let resolved := RegisterMap.resolve maps
  { value := RegisterMap.expandAll resolved
    warnings := (RegisterMap.resolveWarnings maps).map .import ++
      (RegisterMap.expandWarnings resolved).map .expansion
    events := [.importsResolved maps.size] }

def loadMaps (r : Repository) (t : FileTree) : Loaded MapTable :=
  (Loaded.fold (loadMap t) .empty (r.mapSources t)).andThen finishMaps

/-! ### Boards and interfaces -/

/-- The number of boards, with those of one vendor added. -/
def loadCarriers (r : Repository) (t : FileTree) (count : Nat) (v : Vendor) : Loaded Nat :=
  let path := r.carrierScript v
  let (boards, cause) := Carrier.ofFile t path
  { value := count + boards.length
    warnings := cause.toList.map .carriers
    events := (if cause.isNone then [.scriptRead path] else []) ++ [.carriersRead v boards] }

/-- Reads one script of interfaces into the index. -/
def loadInterface (r : Repository) (t : FileTree) (index : InterfaceIndex) (path : Path) :
    Loaded InterfaceIndex :=
  let (interfaces, warnings) := Interface.ofFile t path
  { value :=
      match path.parent?.bind (·.after? r.root) with
      | some dir => index.insert dir (interfaces.map (·.name))
      | none => index
    warnings := warnings.map (.interfaces path)
    events := if wasRead warnings then [.scriptRead path] else [] }

def loadInterfaces (r : Repository) (t : FileTree) : Loaded InterfaceIndex :=
  (Loaded.fold (loadInterface r t) {} (r.interfaceScripts t)).andThen fun index =>
    { value := index, events := [.interfacesIndexed index.size] }

/-! ### Libraries -/

/-- The manifests read so far, and the components that were needed. -/
structure ManifestProgress where
  cache : ComponentCache
  parsed : List ParsedManifest := []

def loadManifest (r : Repository) (t : FileTree) (p : ManifestProgress)
    (source : Vendor × Path) : Loaded ManifestProgress :=
  let path := source.2
  let (cache, result) := Manifest.ofFile t p.cache r.root path
  match result with
  | .error cause => { value := ⟨cache, p.parsed⟩, warnings := [.manifestRefused path cause] }
  | .ok (m, warnings) =>
    let component := (path.parent?.getD ⟨[]⟩).join Manifest.componentName
    let parsed := cache.readings != p.cache.readings || warnings.any (·.isComponentContent)
    { value := ⟨cache, p.parsed ++ [m]⟩
      warnings := warnings.map (.manifest path)
      events := .scriptRead path ::
        (if parsed then [.componentParsed component] else []) ++
          [.manifestRead m] }

/-- The table of all libraries with their names resolved, and the components. -/
def loadLibraries (r : Repository) (t : FileTree) (cache : ComponentCache)
    (interfaces : InterfaceIndex) : Loaded (ComponentCache × LibraryTable) :=
  (Loaded.fold (loadManifest r t) ⟨cache, []⟩ (r.manifests t)).andThen fun p =>
    let libraries := LibraryTable.collect p.parsed
    { value := (p.cache, libraries.resolve interfaces)
      warnings := (libraries.resolveWarnings interfaces).map .library }

/-! ### Projects -/

def loadProject (r : Repository) (t : FileTree) (known : List Text) (projects : ProjectTable)
    (path : Path) : Loaded ProjectTable :=
  match Project.ofEntry t known r.root path with
  | .error cause => { value := projects, warnings := [.projectRefused path cause] }
  | .ok reading =>
    { value := projects.insert reading.key reading.project
      warnings := reading.warnings.map .project
      events := reading.scripts.map (fun e => .scriptRead e.1) ++
        [.projectRead reading.key reading.scripts.length reading.project.libraries.size] }

def loadProjects (r : Repository) (t : FileTree) (libraries : LibraryTable) :
    Loaded ProjectTable :=
  (Loaded.fold (loadProject r t (Closure.allTargets t)) .empty (r.projectEntries t)).andThen
    fun projects => { value := projects.resolve libraries }

end Gateware.Repository
