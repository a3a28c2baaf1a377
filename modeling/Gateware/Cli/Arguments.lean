import Gateware.Path.Basic

/-!
# Command line arguments

A command line names one command with its options; `--verbose` may stand before the command or
after its name. Options may stand anywhere among the files, up to a double dash.
-/

namespace Gateware.Cli

open Text

inductive Command where
  | generate (input : Path) (registerMaps makefiles write : Bool)
  | component (path : Path) (json : Bool)
  | registerMaps (files : List Path) (json : Bool)
  deriving DecidableEq, Repr

inductive Request where
  | run (verbose : Bool) (command : Command)
  | help
  | version
  | invalid
  deriving DecidableEq, Repr

/-! ### Options -/

/-- What the arguments of a command can be: its flags, its options with a value, and how many files
are named at most, if there is a limit. -/
structure Grammar where
  flags : List Text
  valued : List Text := []
  fileLimit : Option Nat

structure Arguments where
  flags : List Text := []
  values : List (Text × Text) := []
  files : List Text := []

def verboseFlag : Text := "--verbose"

/-- How the arguments end: taken apart, asking for help, or wrong. -/
inductive ArgumentsEnd where
  | done (a : Arguments)
  | help
  | invalid

/-- Whether an argument is an option and not a file; a single dash is a file. -/
def isOption (arg : Text) : Bool := arg.head? == some '-' && arg != "-"

/-- Adds a file, which must have a name, where another is allowed. -/
def addFile? (g : Grammar) (a : Arguments) (arg : Text) : Option Arguments :=
  if arg ≠ [] ∧ g.fileLimit.all (a.files.length < ·) then some { a with files := a.files ++ [arg] }
  else none

/-- Adds the value of an option, which is neither empty nor given before. -/
def addValue? (a : Arguments) (option value : Text) : Option Arguments :=
  if value = [] ∨ a.values.any (·.1 == option) then none
  else some { a with values := a.values ++ [(option, value)] }

def addFlag? (a : Arguments) (flag : Text) : Option Arguments :=
  if a.flags.contains flag then none else some { a with flags := a.flags ++ [flag] }

/-- The arguments after a double dash, all of which are files. -/
def takeFiles (g : Grammar) (a : Arguments) (args : List Text) : ArgumentsEnd :=
  match args.foldlM (addFile? g) a with
  | some a => .done a
  | none => .invalid

def takeArguments (g : Grammar) (a : Arguments) : List Text → ArgumentsEnd
  | [] => .done a
  | arg :: rest =>
    if arg = "--" then takeFiles g a rest
    else if arg = "--help" ∨ startsWith "-h" arg then .help
    else if g.flags.contains arg then
      match addFlag? a arg with
      | some a => takeArguments g a rest
      | none => .invalid
    else if g.valued.contains arg then
      match rest with
      | [] => .invalid
      | value :: rest =>
        if isOption value then .invalid
        else
          match addValue? a arg value with
          | some a => takeArguments g a rest
          | none => .invalid
    else if isOption arg then
      match cut? "=" arg with
      | some (option, value) =>
        if g.valued.contains option then
          match addValue? a option value with
          | some a => takeArguments g a rest
          | none => .invalid
        else .invalid
      | none => .invalid
    else
      match addFile? g a arg with
      | some a => takeArguments g a rest
      | none => .invalid

/-! ### Commands -/

inductive CommandName where
  | generate
  | component
  | registerMaps
  deriving DecidableEq, Repr

namespace CommandName

def all : List CommandName := [generate, component, registerMaps]

def text : CommandName → Text
  | generate => "hdl-gen"
  | component => "component"
  | registerMaps => "regmap"

def grammar : CommandName → Grammar
  | generate => ⟨[verboseFlag, "--no-regmap", "--no-makefile", "--no-write"], ["--input"], some 0⟩
  | component => ⟨[verboseFlag, "--json"], [], some 1⟩
  | registerMaps => ⟨[verboseFlag, "--json"], [], none⟩

/-- The command that the arguments make, if their number is right. -/
def command? (c : CommandName) (a : Arguments) : Option Command :=
  let has (flag : Text) : Bool := a.flags.contains flag
  match c, a.files with
  | generate, _ =>
    let input := ((a.values.head?).map Prod.snd).getD "."
    some (.generate ⟨input⟩ (!has "--no-regmap") (!has "--no-makefile") (!has "--no-write"))
  | component, [file] => some (.component ⟨file⟩ (has "--json"))
  | registerMaps, file :: files => some (.registerMaps ((file :: files).map Path.mk) (has "--json"))
  | _, _ => none

end CommandName

/-- The command that shows the usage of the program or of a command. -/
def helpName : Text := "help"

/-- The request for help on what the arguments name: nothing, or one command. -/
def helpOn : List Text → Request
  | [] => .help
  | [name] =>
    if (helpName :: CommandName.all.map CommandName.text).contains name then .help else .invalid
  | _ => .invalid

def Request.ofArguments (verbose : Bool) : List Text → Request
  | [] => .invalid
  | arg :: rest =>
    if arg = verboseFlag then if verbose then .invalid else ofArguments true rest
    else if arg = "--version" ∨ startsWith "-V" arg then .version
    else if arg = "--help" ∨ startsWith "-h" arg then .help
    else if arg = helpName then helpOn rest
    else
      match CommandName.all.find? fun c => c.text == arg with
      | none => .invalid
      | some c =>
        match takeArguments c.grammar {} rest with
        | .help => .help
        | .invalid => .invalid
        | .done a =>
          match c.command? a with
          | some command => .run (verbose || a.flags.contains verboseFlag) command
          | none => .invalid

end Gateware.Cli
