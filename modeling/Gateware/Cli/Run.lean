import Gateware.Cli.Arguments
import Gateware.Cli.Output
import Gateware.Component.Json
import Gateware.RegisterMap.Json
import Gateware.Repository.Generation

/-!
# Running a command

A run of the program takes a file tree to the tree after it, the lines that it writes and its exit
code: zero, one for a failure, and two for arguments that make no request.
-/

namespace Gateware.Cli

open Text

structure Outcome where
  tree : FileTree
  lines : List Line := []
  exitCode : Nat := 0

/-- An outcome that writes nothing to the tree. -/
def Outcome.report (t : FileTree) (lines : List Line) (failure : Option Text) : Outcome :=
  match failure with
  | none => ⟨t, lines, 0⟩
  | some message => ⟨t, lines ++ [failureLine message], 1⟩

def plains (l : List Text) : List Line := l.map .plain

/-! ### Generation -/

def describeOutputs (registerMaps makefiles : Bool) : Text :=
  joinWith " and " ((if makefiles then ["Makefiles".toList] else []) ++
    (if registerMaps then ["register maps".toList] else []))

def countLine (r : Report) : Line :=
  .log .info "hdl_builder"
    (decimal r.libraries ++ " libraries, " ++ decimal r.projects ++ " projects, " ++
      decimal r.registerMaps ++ " register maps, " ++ decimal r.written.length ++ " files, " ++
      decimal r.warnings.length ++ " warnings")

def writtenLine (root : Path) (write : Bool) (path : Path) : Text :=
  (if write then "  ✓ Generated " else "  ✓ Would generate " : Text) ++
    ((path.after? root).getD path).text

def summaryLines (r : Report) : List Text :=
  List.flatten [
    [[], "=== Generation Summary ===",
      "Libraries: " ++ decimal r.libraries, "Projects: " ++ decimal r.projects,
      "Carriers: " ++ decimal r.carriers, "Register maps: " ++ decimal r.registerMaps,
      "Files: " ++ decimal r.written.length],
    if r.warnings.isEmpty then [] else [[], "Warnings (" ++ decimal r.warnings.length ++ "):"],
    r.warnings.map fun w => "  ✗ " ++ w.message]

def reportLines (root : Path) (write : Bool) (r : Report) : List Line :=
  r.warnings.map (fun w => .log .warn "hdl_builder" w.message) ++ [countLine r] ++
    plains (r.written.map (writtenLine root write) ++ summaryLines r)

/-- A run over the repository that holds a path. -/
def generate (stamp : Stamp) (time : Timestamp) (t : FileTree) (input : Path)
    (registerMaps makefiles write : Bool) : Outcome :=
  match Repository.discover t input with
  | .error e => .report t [] (some e.message)
  | .ok r =>
    let start := plains [
      "Generating " ++ describeOutputs registerMaps makefiles ++ " from " ++ r.root.text]
    let run := r.generate ⟨registerMaps, makefiles, write, stamp⟩ time t {}
    let lines := start ++ run.events.map lineOfEvent
    match run.result with
    | .error e => .report run.tree lines (some e.message)
    | .ok report =>
      .report run.tree (lines ++ reportLines r.root write report)
        (if report.written.isEmpty && (registerMaps || makefiles) then
          some ("Nothing generated from " ++ r.root.text)
        else none)

/-! ### Components -/

/-- Times before the epoch have no record. -/
def hasRecord : Option Timestamp → Bool
  | some time => 0 ≤ time.seconds
  | none => true

def noRecord : Text := "SystemTime must be later than UNIX_EPOCH"

def busLine (b : BusInterface) : Text :=
  match b.index with
  | some (low, high) =>
    "  " ++ b.name ++ " [" ++ decimal low ++ ".." ++ decimal high ++ "] " ++ b.busType
  | none => "  " ++ b.name ++ " " ++ b.busType

def portLine (c : Component) (p : Port) : Text :=
  match c.domainsOf p.name with
  | [] => "  " ++ p.name ++ " " ++ p.direction
  | domains => "  " ++ p.name ++ " " ++ p.direction ++ " (" ++ joinWith ", " domains ++ ")"

def componentLines (c : Component) : List Text :=
  List.flatten [
    ["Component " ++ c.name, [], "Bus interfaces (" ++ decimal c.busInterfaces.length ++ "):"],
    c.busInterfaces.map busLine,
    [[], "Ports (" ++ decimal c.ports.length ++ "):"],
    c.ports.map (portLine c),
    [[], "Parameters (" ++ decimal c.parameters.length ++ "):"],
    c.parameters.map fun p => "  " ++ p.name ++ " = " ++ p.default]

def showComponent (t : FileTree) (path : Path) (json : Bool) : Outcome :=
  let parsed := [lineOfEvent (.componentParsed path)]
  match Component.ofFile t path with
  | .error cause =>
    let lines := match cause with
      | .unreadable _ _ => []
      | .content _ => parsed
    .report t lines (some ("Failed to parse " ++ path.text))
  | .ok c =>
    if json then
      if hasRecord c.modified then .report t (parsed ++ plains [c.toJson.pretty 0]) none
      else .report t parsed (some noRecord)
    else .report t (parsed ++ plains (componentLines c)) none

/-! ### Register maps -/

/-- The key of a register map, from the name of its file. -/
def mapKey? (path : Path) : Option Text :=
  path.stem?.map fun stem => (stripStart? "adi_regmap_" stem).getD stem

/-- Reads the files up to the first without a usable name. -/
def readMaps (t : FileTree) (maps : Loaded MapTable) : List Path → Loaded MapTable × Option Path
  | [] => (maps, none)
  | path :: rest =>
    match mapKey? path with
    | none => (maps, some path)
    | some key => readMaps t (maps.andThen fun m => Repository.loadMap t m (key, path)) rest

/-- A warning in the words of this command, which does not name the file. -/
def mapWarning : RunWarning → Text
  | .registerMap _ w => w.message RegisterMap.ParseWarning.message
  | w => w.message

def mapLines (maps : MapTable) : List Text :=
  maps.entries.flatMap fun e =>
    ("Register map " ++ e.1) :: e.2.groups.map fun g =>
      "  " ++ g.title ++ " (" ++ g.name ++ "): " ++ decimal g.registers.length ++ " registers"

/-- Shows the register maps in some files, with imports among them resolved. -/
def showMaps (t : FileTree) (files : List Path) (json : Bool) : Outcome :=
  match readMaps t { value := .empty } files with
  | (read, some path) =>
    .report t (read.events.map lineOfEvent)
      (some ("Bad register map file name " ++ path.text))
  | (read, none) =>
    let maps := read.andThen Repository.finishMaps
    let lines := maps.events.map lineOfEvent ++
      maps.warnings.map fun w => .log .warn "xtask::regmap" (mapWarning w)
    if json then
      if maps.value.values.all fun m => hasRecord m.modified then
        .report t (lines ++ plains [maps.value.toJson.pretty 0]) none
      else .report t lines (some noRecord)
    else .report t (lines ++ plains (mapLines maps.value)) none

/-! ### The program -/

def version : Text := "0.1.0"

def usageLines : List Text := [
  "Usage: xtask [OPTIONS] <COMMAND>",
  [],
  "Commands:",
  "  hdl-gen    Generate library/project Makefiles and register map packages",
  "  component  Parse an IP-XACT component.xml",
  "  regmap     Parse, resolve and expand register map descriptions",
  "  help       Print this message or the help of the given subcommand(s)",
  [],
  "Options:",
  "      --verbose  Log debug output",
  "  -h, --help     Print help",
  "  -V, --version  Print version"]

def runCommand (stamp : Stamp) (time : Timestamp) (t : FileTree) : Command → Outcome
  | .generate input registerMaps makefiles write =>
    generate stamp time t input registerMaps makefiles write
  | .component path json => showComponent t path json
  | .registerMaps files json => showMaps t files json

/-- Runs the program. `stamp` and `time` are those of the run. -/
def run (stamp : Stamp) (time : Timestamp) (t : FileTree) (args : List Text) : Outcome :=
  match Request.ofArguments false args with
  | .invalid => { tree := t, exitCode := 2 }
  | .help => { tree := t, lines := plains usageLines }
  | .version => { tree := t, lines := plains ["xtask " ++ version] }
  | .run verbose command =>
    let outcome := runCommand stamp time t command
    { outcome with lines := outcome.lines.filter (·.isShown verbose) }

end Gateware.Cli
