import Gateware.Makefile
import Gateware.RegisterMap.SmokeTest
import Gateware.Repository.Loading

/-!
# Generation

A run writes the packages of the register maps, then the makefiles of libraries and projects. A
dry run reports the same files and leaves the tree alone.
-/

namespace Gateware

open Text

/-- What a run produces: `write` is off for a dry run. -/
structure GenerateConfig where
  registerMaps : Bool := true
  makefiles : Bool := true
  write : Bool := true
  stamp : Stamp

namespace GenerateConfig

def nothing (stamp : Stamp) : GenerateConfig := ⟨false, false, false, stamp⟩

end GenerateConfig

inductive GenerateError where
  | notCreated (directory : Path)
  | notWritten (path : Path)
  deriving DecidableEq

def GenerateError.message : GenerateError → Text
  | .notCreated directory => "Failed to create " ++ directory.text
  | .notWritten path => "Failed to write " ++ path.text

structure Output where
  path : Path
  lines : List Text
deriving DecidableEq

structure RunCounts where
  libraries : Nat := 0
  projects : Nat := 0
  carriers : Nat := 0
  registerMaps : Nat := 0
deriving DecidableEq

/-- What a run found, and the files that it wrote or would have written. -/
structure Report extends RunCounts where
  written : List Path
  warnings : List RunWarning
deriving DecidableEq

namespace Output

/-- The tree with the file written, and its directory made before. -/
def write (o : Output) (time : Timestamp) (t : FileTree) : FileTree × Option GenerateError :=
  let (t, made) := match o.path.parent? with
    | some dir => ((t.createDirectory dir).1, (t.createDirectory dir).2.map fun _ => dir)
    | none => (t, none)
  match made with
  | some dir => (t, some (.notCreated dir))
  | none =>
    match t.write o.path (some (unlines o.lines)) time with
    | .ok t => (t, none)
    | .error _ => (t, some (.notWritten o.path))

/-- Writes the files up to the first that fails: the tree, the paths of those written, and why the
next one failed. -/
def writeAll (time : Timestamp) (t : FileTree) :
    List Output → FileTree × List Path × Option GenerateError
  | [] => (t, [], none)
  | o :: rest =>
    match o.write time t with
    | (t, some e) => (t, [], some e)
    | (t, none) =>
      let (t, paths, e) := writeAll time t rest
      (t, o.path :: paths, e)

end Output

namespace Repository

/-! ### Stages -/

/-- What a stage found and what it produces. -/
structure Stage where
  counts : RunCounts := {}
  outputs : List Output := []

/-- The files for the maps that are resolved: their packages and the test of them all. -/
def mapOutputs (r : Repository) (maps : MapTable) (stamp : Stamp) : List Output :=
  let resolved := maps.filter fun _ m => m.isResolved
  let output (name : Text) (lines : List Text) : Output := ⟨r.packageDirectory.join name, lines⟩
  let packages := resolved.entries.flatMap fun e =>
    (RegisterMap.outputs e.1 e.2 stamp).map fun f => output f.name f.lines
  if resolved.isEmpty then packages
  else packages ++ [
    output "test_program.sv" (RegisterMap.testProgram resolved),
    output "test_program" (RegisterMap.testScript resolved)]

/-- The stage of the register maps; without test benches nothing is produced. -/
def mapStage (r : Repository) (t : FileTree) (stamp : Stamp) : Loaded Stage :=
  (r.loadMaps t).andThen fun maps =>
    if r.hasTestbenches t then
      { value :=
          { counts := { registerMaps := (maps.filter fun _ m => m.isResolved).size }
            outputs := mapOutputs r maps stamp } }
    else { value := {}, events := [.noTestbenches r.root] }

def makefileName : Text := "Makefile"

def makefileOutputs (r : Repository) (libraries : LibraryTable) (projects : ProjectTable)
    (stamp : Stamp) : List Output :=
  libraries.entries.map (fun e =>
    ⟨(r.libraryDirectory.join e.1).join makefileName, Makefile.ofLibrary e.1 e.2 stamp⟩) ++
  projects.entries.map fun e =>
    ⟨(r.projectDirectory.join e.1).join makefileName, Makefile.ofProject e.1 e.2 stamp⟩

/-- The stage of the makefiles, and the components that are kept. -/
def makefileStage (r : Repository) (t : FileTree) (cache : ComponentCache) (stamp : Stamp) :
    Loaded (ComponentCache × Stage) :=
  (Loaded.fold (r.loadCarriers t) 0 Vendor.all).andThen fun carriers =>
  (r.loadInterfaces t).andThen fun interfaces =>
  (r.loadLibraries t cache interfaces).andThen fun (cache, libraries) =>
  (r.loadProjects t libraries).andThen fun projects =>
    { value := (cache,
        { counts := { carriers, libraries := libraries.size, projects := projects.size }
          outputs := makefileOutputs r libraries projects stamp }) }

/-! ### Runs -/

/-- The outcome of a run: the tree, the components that are kept, the steps, and the report. -/
structure Outcome where
  tree : FileTree
  cache : ComponentCache
  events : List RunEvent
  result : Except GenerateError Report

/-- The outputs written if the run writes at all: the tree, the files that count as written, the
steps and the first failure. -/
def emit (config : GenerateConfig) (time : Timestamp) (t : FileTree) (outputs : List Output) :
    FileTree × List Path × List RunEvent × Option GenerateError :=
  if config.write then
    let (t, paths, e) := Output.writeAll time t outputs
    (t, paths, paths.map .written, e)
  else (t, outputs.map Output.path, [], none)

def generate (r : Repository) (config : GenerateConfig) (time : Timestamp) (t : FileTree)
    (cache : ComponentCache) : Outcome :=
  let maps := if config.registerMaps then r.mapStage t config.stamp else { value := {} }
  let (t, mapPaths, mapEvents, failure) := emit config time t maps.value.outputs
  match failure with
  | some e => ⟨t, cache, maps.events ++ mapEvents, .error e⟩
  | none =>
    let builds := if config.makefiles then r.makefileStage t cache config.stamp
      else { value := (cache, {}) }
    let (cache, stage) := builds.value
    let (t, buildPaths, buildEvents, failure) := emit config time t stage.outputs
    let events := maps.events ++ mapEvents ++ builds.events ++ buildEvents
    match failure with
    | some e => ⟨t, cache, events, .error e⟩
    | none =>
      ⟨t, cache, events, .ok {
        stage.counts with
        registerMaps := maps.value.counts.registerMaps
        written := mapPaths ++ buildPaths
        warnings := maps.warnings ++ builds.warnings }⟩

end Repository

end Gateware
