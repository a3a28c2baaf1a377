import Gateware.Library.Basic
import Gateware.Script.File

/-!
# The scripts of a project

A script names further scripts to run. The closure of a script holds every script that is reached
from it, each once, depth first. The walk ends because each script that is visited leaves the list
of those that are not.
-/

namespace Gateware

open Text

inductive ProjectWarning where
  | unread (cause : Script.Error)
  | notFollowed (target : Text) (script : Path)
  deriving DecidableEq

def ProjectWarning.message : ProjectWarning → Text
  | .unread cause => cause.message
  | .notFollowed target script =>
    "Can't follow 'source " ++ target ++ "' in " ++ script.text ++ "!"

namespace Closure

/-! ### What a script names -/

def sourceCall : Text := "source"

/-- The scripts that set up the tool, which every project runs. -/
def environmentScripts : List Text := [
  "adi_env.tcl", "adi_board.tcl", "adi_project_xilinx.tcl", "adi_project_intel.tcl",
  "adi_project.tcl"]

/-- The script that a line names, unless the line stands first in an else branch. -/
def targetOf? (previous line : Text) : Option Text :=
  if Script.commandName? line = some sourceCall ∧
      !endsWith ['\x7d', ' ', 'e', 'l', 's', 'e', ' ', '\x7b'] previous then
    (Script.splitWords line)[1]?.map Script.unquote
  else none

/-- The scripts that the lines name, environment scripts apart. -/
def targetsAfter (previous : Text) : List Text → List Text
  | [] => []
  | line :: rest =>
    ((targetOf? previous line).filter fun target =>
      !(((Path.mk target).fileName?.map environmentScripts.contains).getD false)).toList ++
      targetsAfter line rest

def targets (s : Script) : List Text := targetsAfter [] s.lines

/-- Whether the name holds a variable or a command, the root of the repository apart. -/
def isComputed (target : Text) : Bool :=
  (replace Vendor.rootToken [] target).any fun c => c == '$' || c == '['

/-! ### The walk -/

/-- Where names in scripts lead: from the root of the repository, or from the project's directory,
where the scripts run. -/
structure Place where
  root : Path
  directory : Path

def Place.resolve (d : Place) (file : Text) : Path := dependencyPath d.root d.directory file

/-- The scripts that were read, in the order in which they were reached. -/
structure Reached where
  scripts : List (Path × Script) := []
  warnings : List ProjectWarning := []

def others (p : Path) (unseen : List Path) : List Path := unseen.filter (· != p)

theorem length_others_lt {p : Path} {unseen : List Path} (h : unseen.contains p = true) :
    (others p unseen).length < unseen.length :=
  List.length_filter_lt_length_iff_exists.2 ⟨p, by simpa using h, by simp⟩

/-- Visits the pending paths, first those that a visited script names. Only `unseen` paths are
visited. -/
def walk (t : FileTree) (d : Place) (unseen pending : List Path) (r : Reached) :
    List Path × Reached :=
  match pending with
  | [] => (unseen, r)
  | p :: pending =>
    if unseen.contains p then
      match Script.ofFile t p with
      | .error cause =>
        walk t d (others p unseen) pending { r with warnings := r.warnings ++ [.unread cause] }
      | .ok s =>
        let (computed, plain) := (targets s).partition isComputed
        walk t d (others p unseen) (plain.map d.resolve ++ pending)
          ⟨r.scripts ++ [(p, s)], r.warnings ++ computed.map (.notFollowed · p)⟩
    else walk t d unseen pending r
termination_by (unseen.length, pending.length)
decreasing_by
  · exact Prod.Lex.left _ _ (length_others_lt ‹_›)
  · exact Prod.Lex.left _ _ (length_others_lt ‹_›)
  · exact Prod.Lex.right _ (Nat.lt_succ_self _)

/-- Every name that a script of the tree gives to another. -/
def allTargets (t : FileTree) : List Text :=
  t.nodes.values.flatMap fun
    | .file (some source) _ => targets (Script.ofText source)
    | _ => []

/-- The scripts reached from an entry, then from another one, if that is a file. `known` holds
every name that a script of the tree gives to another. -/
def ofEntries (t : FileTree) (known : List Text) (d : Place) (entry other : Path) : Reached :=
  let entry := entry.normalize
  let (unseen, r) := walk t d (entry :: other.normalize :: known.map d.resolve) [entry] {}
  if t.isFile other then (walk t d unseen [other.normalize] r).2 else r

end Closure

end Gateware
