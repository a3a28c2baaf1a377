import Gateware.Cli.Run
import Std.Time.Zoned

/-!
# The program

The files that a command line can reach are read into a file tree, the run is computed, and what
it changed is written back.
-/

namespace Gateware.Program

/-- The absolute path of a location in the file system. -/
def systemPath (l : Location) : String := String.ofList (FileTree.absolutePath l).text

/-- The location of an absolute path. -/
def locationOf (path : String) : Location := Text.wordsBy (· == Path.separator) path.toList

/-- What is at a location. -/
def nodeAt? (l : Location) : IO (Option Node) := do
  let path := (← IO.currentDir) / systemPath l
  match ← path.metadata.toBaseIO with
  | .error _ => return none
  | .ok m =>
    match m.type with
    | .dir => return some .directory
    | .file =>
      match ← (IO.FS.readBinFile path).toBaseIO with
      | .error _ => return none
      | .ok bytes =>
        return some (.file ((String.fromUTF8? bytes).map String.toList)
          ⟨m.modified.sec, m.modified.nsec.toNat⟩)
    | _ => return none

/-- The tree with what is at a location. -/
def addNode (t : FileTree) (l : Location) : IO FileTree := do
  match ← nodeAt? l with
  | some n => return { t with nodes := t.nodes.insert l n }
  | none => return t

/-- The tree with the places that the parts of a path lead to from a location. -/
def addWay (t : FileTree) (l : Location) : List PathPart → IO FileTree
  | [] => return t
  | .root :: rest => addWay t [] rest
  | .here :: rest => addWay t l rest
  | .up :: rest => addWay t l.dropLast rest
  | .name n :: rest => do addWay (← addNode t (l ++ [n])) (l ++ [n]) rest

/-- The tree with a directory and everything below it, version control apart. -/
partial def addAll (t : FileTree) (l : Location) : IO FileTree := do
  let t ← addNode t l
  if t.node? l = some .directory then
    let path := (← IO.currentDir) / systemPath l
    (← path.readDir).foldlM (fun t entry =>
      if entry.fileName = ".git" then return t
      else addAll t (l ++ [entry.fileName.toList])) t
  else return t

/-- The tree with the repository that holds a path, if there is one. -/
def addRepository (t : FileTree) (start : Path) : IO FileTree := do
  match t.find start with
  | .error _ => return t
  | .ok (l, _) =>
    let t ← (Repository.ancestors l).foldlM (fun t l => do
      let t ← addNode t (l ++ [Repository.libraryName])
      addNode t (l ++ [Repository.projectsName])) t
    match Repository.discover t start with
    | .error _ => return t
    | .ok r => addAll t (locationOf (String.ofList r.root.text))

/-- The files that a command can reach. -/
def load (command : Cli.Command) : IO FileTree := do
  let here := locationOf (← IO.currentDir).toString
  let t ← addWay { here } [] (here.map .name)
  match command with
  | .generate input _ _ _ => addRepository (← addWay t here input.parts) input
  | .component path _ => addWay t here path.parts
  | .registerMaps files _ => files.foldlM (fun t path => addWay t here path.parts) t

/-- Writes the directories and files that differ between two trees. -/
def store (before after : FileTree) : IO Unit :=
  for (l, n) in after.nodes.entries do
    if before.node? l ≠ some n then
      match n with
      | .directory => IO.FS.createDirAll (systemPath l)
      | .file text _ => IO.FS.writeFile (systemPath l) (String.ofList (text.getD []))

def calendarTime (d : Std.Time.PlainDateTime) : CalendarTime where
  year := d.date.year
  month := d.date.month.val.toNat
  day := d.date.day.val.toNat
  hour := d.time.hour.val.toNat
  minute := d.time.minute.val.toNat
  second := d.time.second.val.toNat
  millisecond := d.time.nanosecond.val.toNat / 1000000

/-- Writes a line; a log line starts with the time. -/
def printLine (time : CalendarTime) (line : Cli.Line) : IO Unit :=
  match line with
  | .plain text => IO.println (String.ofList text)
  | .log .. => IO.println (String.ofList (time.inLog ++ " ".toList ++ line.text))

end Gateware.Program

open Gateware in
def main (args : List String) : IO UInt32 := do
  let now ← Std.Time.Timestamp.now
  let utc := (Std.Time.DateTime.ofTimestamp now .UTC).toPlainDateTime
  let stamp := Stamp.ofTime Cli.version (Program.calendarTime (← Std.Time.PlainDateTime.now))
  let args := args.map String.toList
  let tree ← match Cli.Request.ofArguments false args with
    | .run _ command => Program.load command
    | _ => pure {}
  let outcome := Cli.run stamp ⟨now.toSecondsSinceUnixEpoch.val, 0⟩ tree args
  Program.store tree outcome.tree
  outcome.lines.forM (Program.printLine (Program.calendarTime utc))
  if outcome.exitCode = 2 then
    Cli.usageLines.forM fun line => IO.eprintln (String.ofList line)
  return outcome.exitCode.toUInt32
