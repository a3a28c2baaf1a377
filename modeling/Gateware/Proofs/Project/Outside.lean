import Gateware.Proofs.Path.Fork
import Gateware.Proofs.Project.Closure

/-!
# Files outside a project

A project depends on the scripts that it is read from and on the files that its own script lists
(`Needs`), as far as they stand outside its directory. Each of them has one entry, which leads there
from the directory when the root is spelled without steps up from the root of all paths
(`files_exact`).
-/

namespace Gateware

open Text

namespace Path

/-- The parts of the normal path, with no steps up from the root: nothing stands above it. -/
def settled (p : Path) : List PathPart :=
  if p.isAbsolute then p.normalize.parts.filter (· ≠ .up) else p.normalize.parts

theorem settled_normalize (p : Path) : p.normalize.settled = p.settled := by
  unfold settled
  rw [isAbsolute_normalize, normalize_normalize]

end Path

namespace Closure.Place

open Gateware.Path

/-- The directory is a normal path further down from the root. -/
structure Nested (d : Place) : Prop where
  normal : d.directory.normalize = d.directory
  below : ∃ n rest, d.directory.parts = d.root.normalize.parts ++ .name n :: rest
  absolute : d.directory.isAbsolute = d.root.isAbsolute

variable {d : Place}

/-- What a name in a script leads to keeps the floor of the directory, unless it begins at the
root. -/
theorem Nested.resolve_cases (h : d.Nested) (file : Text) :
    (d.resolve file).isAbsolute = true ∨
      (d.resolve file).isAbsolute = d.directory.isAbsolute ∧
        ∀ floor, Floor floor → floor <+: d.directory.parts → floor <+: (d.resolve file).parts := by
  unfold Place.resolve dependencyPath
  split
  · rename_i rest _
    have head := head?_dropWhile_separator rest
    refine .inr ⟨(isAbsolute_normalize _).trans ((isAbsolute_join head).trans h.absolute.symm), ?_⟩
    intro floor hf begins
    obtain ⟨n, more, below⟩ := h.below
    obtain ⟨s, whole⟩ := begins
    have above : floor <+: d.root.normalize.parts := hf.prefix_above (whole.trans below)
    exact hf.prefix_join head above
  · by_cases head : file.head? = some separator
    · exact .inl ((isAbsolute_normalize _).trans (isAbsolute_join_root head))
    · refine .inr ⟨(isAbsolute_normalize _).trans (isAbsolute_join head), fun floor hf begins => ?_⟩
      exact hf.prefix_join head (h.normal.symm ▸ begins)

theorem normalize_resolve (d : Place) (file : Text) :
    (d.resolve file).normalize = d.resolve file := by
  unfold Place.resolve dependencyPath
  split <;> exact normalize_normalize _

/-- The way from the directory to what a script names leads there, unless it climbs over steps up
from the root. -/
theorem Nested.leads_or_overclimbs (h : d.Nested) (file : Text) :
    (d.directory.join ((d.resolve file).relativeTo d.directory).toSlash).normalize =
        d.resolve file ∨
      d.root.isAbsolute = true ∧ ∃ (floor : List PathPart) (n : Nat) (names names' : List Text),
        Floor floor ∧ (d.resolve file).parts = floor ++ names'.map .name ∧
        d.directory.parts = floor ++ List.replicate (n + 1) .up ++ names.map .name ∧
        (d.directory.join ((d.resolve file).relativeTo d.directory).toSlash).normalize.parts =
          floor ++ List.replicate (n + 1) .up ++
            (List.replicate (n + 1) .up ++ names'.map .name) := by
  obtain ⟨common, onward, back, fork⟩ :=
    exists_fork (d.resolve file).normalize.parts d.directory.normalize.parts
  have leads (same : (d.resolve file).isAbsolute = d.directory.isAbsolute) (level : .up ∉ back) :=
    (fork.leads same level).trans (normalize_resolve d file)
  rcases h.resolve_cases file with absolute | ⟨same, kept⟩
  · cases directory : d.directory.isAbsolute with
    | false =>
      exact .inl ((normalize_join_relativeTo_root absolute directory).trans
        (normalize_resolve d file))
    | true =>
      have same := absolute.trans directory.symm
      by_cases climbs : .up ∈ back
      · obtain ⟨n, names, names', floor, rfl, rfl, parts⟩ := fork.overclimbs same climbs
        refine .inr ⟨h.absolute ▸ directory, common, n, names, names', floor, ?_, ?_, parts⟩
        · rw [← normalize_resolve, fork.left]
        · rw [← h.normal, fork.right, List.append_assoc]
      · exact .inl (leads same climbs)
  · -- the file stands on the floor of the directory, so the way climbs over names only
    obtain ⟨floor, names, hf, parts⟩ := exists_floor d.directory
    have begins : floor <+: d.directory.parts := by
      rw [← h.normal, parts]
      exact List.prefix_append _ _
    refine .inl (leads same (fork.level parts ?_))
    rw [normalize_resolve]
    exact kept floor hf begins

theorem Nested.leads (h : d.Nested)
    (level : d.root.isAbsolute = true → .up ∉ d.root.normalize.parts) (file : Text) :
    (d.directory.join ((d.resolve file).relativeTo d.directory).toSlash).normalize =
      d.resolve file := by
  refine (h.leads_or_overclimbs file).resolve_right ?_
  rintro ⟨absolute, common, n, names, -, floor, -, parts, -⟩
  obtain ⟨_, _, below⟩ := h.below
  -- the steps up that the way climbs over stand in front of the names, so in the root
  obtain ⟨rest, root⟩ :=
    (floor_append_ups floor (n + 1)).prefix_above (parts.symm.trans below)
  refine level absolute (root ▸ List.mem_append_left _ ?_)
  exact List.mem_append_right _ List.mem_cons_self

theorem Nested.settled_leads (h : d.Nested) (file : Text) :
    (d.directory.join ((d.resolve file).relativeTo d.directory).toSlash).settled =
      (d.resolve file).settled := by
  rcases h.leads_or_overclimbs file with
    leads | ⟨absolute, floor, n, names, names', -, target, directory, way⟩
  · rw [← settled_normalize, leads]
  · rw [← h.absolute, isAbsolute_iff, directory] at absolute
    have root : .root ∈ floor := by simpa using absolute
    rw [← settled_normalize, settled, settled, if_pos, if_pos]
    · rw [normalize_normalize, normalize_resolve, target, way]
      simp
    · exact isAbsolute_iff.mpr (target ▸ List.mem_append_left _ root)
    · exact isAbsolute_iff.mpr
        (way ▸ List.mem_append_left _ (List.mem_append_left _ root))

theorem Nested.leads_outside (h : d.Nested) {file : Text}
    (outside : (d.resolve file).startsWith d.directory = false) :
    (d.directory.join ((d.resolve file).relativeTo d.directory).toSlash).normalize.startsWith
      d.directory = false := by
  rcases h.leads_or_overclimbs file with
    leads | ⟨-, floor, n, names, names', hf, -, directory, way⟩
  · exact (congrArg (·.startsWith d.directory) leads).trans outside
  · obtain ⟨_, _, below⟩ := h.below
    rw [Bool.eq_false_iff, Ne, Path.startsWith_iff_prefix, directory, way,
      List.prefix_append_right_inj]
    intro inside
    -- the directory goes on by a name, where the way goes on up
    cases names with
    | nil =>
      have deep := floor_append_ups hf (n + 1)
      rw [List.map_nil, List.append_nil] at directory
      rw [← directory, below] at deep
      exact not_floor_of_name fun c hc => deep c (List.mem_append_right _ hc)
    | cons name names => cases (List.cons_prefix_cons.mp inside).1

end Closure.Place

namespace Closure

variable {t : FileTree} {d : Place} {entry other p : Path} {s : Script}

theorem Reachable.normal (h : Reachable t d (entries t entry other) p) : p.normalize = p := by
  cases h with
  | entry named =>
    rcases mem_entries.mp named with rfl | ⟨-, rfl⟩ <;> exact Path.normalize_normalize _
  | source => exact d.normalize_resolve _

end Closure

namespace Project

open Closure

variable {t : FileTree} {root entry : Path} {d : Place}

/-- The script that stands in the directory of each project. -/
def ownScript (d : Place) : Path := d.directory.join Vendor.projectScript

def starts (t : FileTree) (d : Place) (entry : Path) : List Path :=
  entries t entry (ownScript d)

/-- The project in the directory is built from the file: it is a script that is read, or the
project's own script lists it, if that is read. -/
inductive Needs (t : FileTree) (d : Place) (entry : Path) : Path → Prop
  | script {p : Path} {s : Script} (reached : Reachable t d (starts t d entry) p)
      (read : Script.ofFile t p = .ok s) : Needs t d entry p
  | listed {s : Script} {line item : Text}
      (reached : Reachable t d (starts t d entry) (ownScript d))
      (read : Script.ofFile t (ownScript d) = .ok s) (held : line ∈ s.lines)
      (call : Script.commandName? line = some Vendor.projectFilesCall)
      (named : item ∈ Script.listItems line) : Needs t d entry (d.resolve item)

/-! ### The files -/

theorem pairwise_outsideFiles (directory : Path) (files : List Path) :
    (outsideFiles directory files).Pairwise fun a b => Key.lt b a = true :=
  List.pairwise_reverse.mpr (KeySet.sorted _)

theorem mem_outsideFiles {directory : Path} {files : List Path} {x : Text} :
    x ∈ outsideFiles directory files ↔
      ∃ f ∈ files, f.startsWith directory = false ∧ (f.relativeTo directory).toSlash = x := by
  unfold outsideFiles
  simp only [List.mem_reverse, KeySet.mem_toList, KeySet.mem_ofList, List.mem_map, List.mem_filter,
    Bool.not_eq_true', and_assoc]

theorem plain_projectScript : PathPart.Plain Vendor.projectScript := by decide

theorem ownScript_normal (h : d.Nested) : (ownScript d).normalize = ownScript d := by
  unfold ownScript
  rw [Path.normalize_join_plain plain_projectScript, h.normal]

theorem mem_listedFiles {own : Path} {scripts : List (Path × Script)} {q : Path}
    (told : ∀ p s, (p, s) ∈ scripts → p.parts = own.parts → p = own)
    (one : ∀ s s', (own, s) ∈ scripts → (own, s') ∈ scripts → s = s') :
    q ∈ listedFiles d own scripts ↔ ∃ s line item, (own, s) ∈ scripts ∧ line ∈ s.lines ∧
      Script.commandName? line = some Vendor.projectFilesCall ∧ item ∈ Script.listItems line ∧
      q = d.resolve item := by
  unfold listedFiles
  cases found : scripts.find? fun e => e.1.parts == own.parts with
  | none =>
    simp only [List.not_mem_nil, false_iff, not_exists]
    rintro s line item ⟨held, -⟩
    exact absurd (List.find?_eq_none.mp found _ held) (by simp)
  | some e =>
    obtain ⟨p, s⟩ := e
    have held := List.mem_of_find?_eq_some found
    obtain rfl := told p s held (by simpa using List.find?_some found)
    simp only [List.mem_flatMap, List.mem_map, Script.commands, List.mem_filter, beq_iff_eq]
    constructor
    · rintro ⟨line, ⟨mem, call⟩, item, named, rfl⟩
      exact ⟨s, line, item, held, mem, call, named, rfl⟩
    · rintro ⟨s', line, item, held', mem, call, named, rfl⟩
      obtain rfl := one s s' held held'
      exact ⟨line, ⟨mem, call⟩, item, named, rfl⟩

/-- The files that a project is built from, before those in its directory are left out. -/
theorem mem_files (h : d.Nested) {scripts : List (Path × Script)}
    (read : ∀ p s, (p, s) ∈ scripts ↔
      Reachable t d (starts t d entry) p ∧ Script.ofFile t p = .ok s) {q : Path} :
    q ∈ scripts.map Prod.fst ++ listedFiles d (ownScript d) scripts ↔ Needs t d entry q := by
  have told (p : Path) (s : Script) (held : (p, s) ∈ scripts)
      (parts : p.parts = (ownScript d).parts) : p = ownScript d :=
    Path.eq_of_parts ((read p s).mp held).1.normal (ownScript_normal h) parts
  have one (s s' : Script) (held : (ownScript d, s) ∈ scripts)
      (held' : (ownScript d, s') ∈ scripts) : s = s' :=
    Except.ok.inj (((read _ s).mp held).2.symm.trans ((read _ s').mp held').2)
  rw [List.mem_append, mem_listedFiles told one, List.mem_map]
  constructor
  · rintro (⟨⟨p, s⟩, held, rfl⟩ | ⟨s, line, item, held, mem, call, named, rfl⟩)
    · obtain ⟨reached, script⟩ := (read p s).mp held
      exact .script reached script
    · obtain ⟨reached, script⟩ := (read _ s).mp held
      exact .listed reached script mem call named
  · rintro (⟨reached, script⟩ | ⟨reached, script, mem, call, named⟩)
    · exact .inl ⟨_, (read _ _).mpr ⟨reached, script⟩, rfl⟩
    · exact .inr ⟨_, _, _, (read _ _).mpr ⟨reached, script⟩, mem, call, named, rfl⟩

/-- The scripts that a project is reached from stand in its directory, so another file is one that
a script names. -/
theorem Needs.resolves (h : d.Nested)
    (inside : entry.normalize.startsWith d.directory = true) {q : Path} (needs : Needs t d entry q)
    (outside : q.startsWith d.directory = false) : ∃ file, q = d.resolve file := by
  cases needs with
  | script reached read =>
    cases reached with
    | entry named =>
      have own : (ownScript d).normalize.startsWith d.directory = true := by
        rw [ownScript_normal h, Path.startsWith_iff_prefix]
        exact ⟨_, (Path.parts_join plain_projectScript d.directory).symm⟩
      rcases mem_entries.mp named with rfl | ⟨-, rfl⟩
      · exact absurd inside (by simp [outside])
      · exact absurd own (by simp [outside])
    | source => exact ⟨_, rfl⟩
  | listed => exact ⟨_, rfl⟩

/-! ### Reading a project -/

theorem nested_of_after {dir inside : Path} (normal : dir.normalize = dir)
    (placed : dir.after? (directory root).normalize = some inside) : Place.Nested ⟨root, dir⟩ := by
  obtain ⟨rest, after, -⟩ := Option.map_eq_some_iff.mp placed
  have whole := Path.partsAfter?_eq_some_iff.mp after
  have plain : PathPart.Plain "projects" := by decide
  have top : (directory root).normalize.parts = root.normalize.parts ++ [.name "projects"] := by
    unfold directory
    rw [Path.normalize_join_plain plain]
    exact Path.parts_join plain _
  refine ⟨normal, ⟨"projects".toList, rest, ?_⟩, ?_⟩
  · rw [whole, top, List.append_assoc]
    rfl
  · rw [Path.isAbsolute_of_prefix ⟨rest, whole.symm⟩ (by simp [top]), Path.isAbsolute_normalize]
    exact Path.isAbsolute_join (Path.head?_of_plain plain)

theorem entry_inside {name : Text} (named : entry.fileName? = some name) :
    entry.normalize.startsWith (entry.parent?.getD ⟨[]⟩).normalize = true := by
  obtain ⟨above, parts⟩ : ∃ above, entry.parts = above ++ [name].map .name := by
    unfold Path.fileName? at named
    split at named
    · rename_i last
      obtain ⟨above, parts⟩ := List.getLast?_eq_some_iff.mp last
      exact ⟨above, parts.trans (by rw [Option.some.inj named]; rfl)⟩
    · cases named
  obtain ⟨q, parent, before⟩ := Path.parts_parent parts
  rw [parent, Path.startsWith_iff_prefix, Option.getD_some, Path.parts_normalize,
    Path.parts_normalize, parts, Path.reduce_names, before]
  exact List.prefix_append _ _

/-- A project that is read stands with its entry below the root, and its files are told by the
scripts that are reached. -/
theorem files_of_read {reading : Reading} (h : ofFile t root entry = .ok reading) :
    let d : Place := ⟨root, (entry.parent?.getD ⟨[]⟩).normalize⟩
    let scripts := (ofEntries t (allTargets t) d entry (ownScript d)).scripts
    d.Nested ∧ entry.normalize.startsWith d.directory = true ∧
      reading.project.files =
        outsideFiles d.directory (scripts.map Prod.fst ++ listedFiles d (ownScript d) scripts) := by
  intro d scripts
  obtain ⟨v, inside, named, placed, rfl⟩ := ofFile_eq_ok_iff.mp h
  refine ⟨nested_of_after (Path.normalize_normalize _) placed, ?_, ?_⟩
  · cases name : entry.fileName? with
    | some n => exact entry_inside name
    | none =>
      rw [name] at named
      cases named
  · simp only [ofScripts, ownScript, scripts, d]

theorem mem_files_iff (h : d.Nested) {x : Text} :
    let scripts := (ofEntries t (allTargets t) d entry (ownScript d)).scripts
    x ∈ outsideFiles d.directory (scripts.map Prod.fst ++ listedFiles d (ownScript d) scripts) ↔
      ∃ q, Needs t d entry q ∧ q.startsWith d.directory = false ∧
        (q.relativeTo d.directory).toSlash = x := by
  intro scripts
  obtain ⟨visited, search, same⟩ := ofEntries_visits t d entry (ownScript d)
  have read := (exact_of_visits search).read
  rw [← same] at read
  rw [mem_outsideFiles]
  exact exists_congr fun q => and_congr_left' (mem_files h read)

/-- The files of a project are exact: they fall strictly, none leads into the directory, and joined
to it they name the files that are needed from outside. Only a root that is spelled with steps up
from the root of all paths can make the names differ, and then by such steps alone. -/
theorem files_exact {reading : Reading} (h : ofFile t root entry = .ok reading) :
    let dir := (entry.parent?.getD ⟨[]⟩).normalize
    let files := reading.project.files
    files.Pairwise (fun a b => Key.lt b a = true) ∧
    (∀ x ∈ files, (dir.join x).normalize.startsWith dir = false) ∧
    ((root.isAbsolute = true → .up ∉ root.normalize.parts) →
      ∀ q, (∃ x ∈ files, (dir.join x).normalize = q) ↔
        Needs t ⟨root, dir⟩ entry q ∧ q.startsWith dir = false) ∧
    ∀ place, (∃ x ∈ files, (dir.join x).settled = place) ↔
      ∃ q, Needs t ⟨root, dir⟩ entry q ∧ q.startsWith dir = false ∧ q.settled = place := by
  intro dir files
  obtain ⟨nested, inside, written⟩ := files_of_read h
  have falling : files.Pairwise fun a b => Key.lt b a = true := by
    unfold files
    rw [written]
    exact pairwise_outsideFiles _ _
  have mem (x : Text) : x ∈ files ↔ ∃ q, Needs t ⟨root, dir⟩ entry q ∧
      q.startsWith dir = false ∧ (q.relativeTo dir).toSlash = x := by
    unfold files
    rw [written]
    exact mem_files_iff nested
  -- each entry is the way to a file that a script names
  have named {q : Path} (needs : Needs t ⟨root, dir⟩ entry q) (outside : q.startsWith dir = false) :
      ∃ file, q = Place.resolve ⟨root, dir⟩ file := needs.resolves nested inside outside
  refine ⟨falling, fun x hx => ?_, fun level q => ?_, fun place => ?_⟩
  · obtain ⟨q, needs, outside, rfl⟩ := (mem x).mp hx
    obtain ⟨file, rfl⟩ := named needs outside
    exact nested.leads_outside outside
  · constructor
    · rintro ⟨x, hx, rfl⟩
      obtain ⟨q, needs, outside, rfl⟩ := (mem x).mp hx
      obtain ⟨file, rfl⟩ := named needs outside
      rw [nested.leads level file]
      exact ⟨needs, outside⟩
    · rintro ⟨needs, outside⟩
      obtain ⟨file, rfl⟩ := named needs outside
      exact ⟨_, (mem _).mpr ⟨_, needs, outside, rfl⟩, nested.leads level file⟩
  · constructor
    · rintro ⟨x, hx, rfl⟩
      obtain ⟨q, needs, outside, rfl⟩ := (mem x).mp hx
      obtain ⟨file, rfl⟩ := named needs outside
      exact ⟨_, needs, outside, (nested.settled_leads file).symm⟩
    · rintro ⟨q, needs, outside, rfl⟩
      obtain ⟨file, rfl⟩ := named needs outside
      exact ⟨_, (mem _).mpr ⟨_, needs, outside, rfl⟩, nested.settled_leads file⟩

/-- A project that sources a script beside its directory, and lists one file within and one at the
root. -/
def listingTree : FileTree where
  nodes := .ofList [
    (List.map String.toList ["projects"], .directory),
    (List.map String.toList ["projects", "dev"], .directory),
    (List.map String.toList ["projects", "dev", "system_bd.tcl"],
      scriptNode "source ../dev_bd.tcl\n"),
    (List.map String.toList ["projects", "dev", "system_project.tcl"],
      scriptNode "adi_project_files dev [list top.v $ad_hdl_dir/io.v]\n"),
    (List.map String.toList ["projects", "dev_bd.tcl"], scriptNode "ad_ip_instance i d\n")]

theorem files_exact_listingTree :
    let dir : Path := ⟨"projects/dev"⟩
    ∃ reading, ofFile listingTree ⟨[]⟩ ⟨"projects/dev/system_bd.tcl"⟩ = .ok reading ∧
      (∃ x ∈ reading.project.files, (dir.join x).normalize = ⟨"projects/dev_bd.tcl"⟩) ∧
      (∃ x ∈ reading.project.files, (dir.join x).normalize = ⟨"io.v"⟩) ∧
      ∀ x ∈ reading.project.files, (dir.join x).normalize ≠ ⟨"projects/dev/top.v"⟩ := by
  intro dir
  let entry : Path := ⟨"projects/dev/system_bd.tcl"⟩
  let place : Place := ⟨⟨[]⟩, dir⟩
  have named : Vendor.ofProjectEntry? (entry.fileName?.getD []) = some .xilinx := by decide +kernel
  have placed : (entry.parent?.getD ⟨[]⟩).normalize.after? (directory ⟨[]⟩).normalize =
      some ⟨"dev"⟩ := by decide +kernel
  obtain ⟨reading, read⟩ : ∃ reading, ofFile listingTree ⟨[]⟩ entry = .ok reading :=
    ⟨_, ofFile_eq_ok_iff.mpr ⟨.xilinx, _, named, placed, rfl⟩⟩
  obtain ⟨-, outside, exact, -⟩ := files_exact read
  have here : (entry.parent?.getD ⟨[]⟩).normalize = dir := by decide +kernel
  rw [here] at outside exact
  have begun : entry ∈ starts listingTree place entry := by decide +kernel
  have across : ⟨"projects/dev_bd.tcl"⟩ ∈ next listingTree place entry := by decide +kernel
  have script : found? listingTree ⟨"projects/dev_bd.tcl"⟩ =
      some (⟨"projects/dev_bd.tcl"⟩, ⟨["ad_ip_instance i d"]⟩) := by decide +kernel
  have own : ownScript place ∈ starts listingTree place entry := by decide +kernel
  let line : Text := "adi_project_files dev [list top.v $ad_hdl_dir/io.v]"
  have script' : found? listingTree (ownScript place) = some (ownScript place, ⟨[line]⟩) := by
    decide +kernel
  have listed : Needs listingTree place entry (place.resolve "$ad_hdl_dir/io.v") :=
    .listed (.entry own) (found?_eq_some_iff.mp script').2 List.mem_cons_self (by decide +kernel)
      (by decide +kernel)
  refine ⟨reading, read, (exact nofun _).mpr ⟨?_, by decide +kernel⟩,
    (exact nofun _).mpr ⟨listed, by decide +kernel⟩, fun x hx same => ?_⟩
  · exact .script ((Reachable.entry begun).next across) (found?_eq_some_iff.mp script).2
  · have within := outside x hx
    rw [same] at within
    exact absurd within (by decide +kernel)

/-- A project whose root is spelled with a step up from the root of all paths, where a file stands
that it lists. -/
def steppedTree : FileTree where
  nodes := .ofList [
    (List.map String.toList ["r"], .directory),
    (List.map String.toList ["r", "projects"], .directory),
    (List.map String.toList ["r", "projects", "dev"], .directory),
    (List.map String.toList ["r", "projects", "dev", "system_bd.tcl"], scriptNode []),
    (List.map String.toList ["r", "projects", "dev", "system_project.tcl"],
      scriptNode "adi_project_files dev [list /x.v]\n")]

/-- The way to the listed file climbs over the step up, which does not cancel it. -/
theorem not_exact_steppedTree :
    let root : Path := ⟨"/../r"⟩
    let entry : Path := ⟨"/../r/projects/dev/system_bd.tcl"⟩
    let dir := (entry.parent?.getD ⟨[]⟩).normalize
    ∃ reading, ofFile steppedTree root entry = .ok reading ∧
      ¬ ∀ q, (∃ x ∈ reading.project.files, (dir.join x).normalize = q) ↔
        Needs steppedTree ⟨root, dir⟩ entry q ∧ q.startsWith dir = false := by
  intro root entry dir
  let place : Place := ⟨root, dir⟩
  have named : Vendor.ofProjectEntry? (entry.fileName?.getD []) = some .xilinx := by decide +kernel
  have placed : dir.after? (directory root).normalize = some ⟨"dev"⟩ := by decide +kernel
  obtain ⟨reading, read⟩ : ∃ reading, ofFile steppedTree root entry = .ok reading :=
    ⟨_, ofFile_eq_ok_iff.mpr ⟨.xilinx, _, named, placed, rfl⟩⟩
  refine ⟨reading, read, fun exact => ?_⟩
  obtain ⟨nested, inside, written⟩ := files_of_read read
  have own : ownScript place ∈ starts steppedTree place entry := by decide +kernel
  let line : Text := "adi_project_files dev [list /x.v]"
  have script : found? steppedTree (ownScript place) = some (ownScript place, ⟨[line]⟩) := by
    decide +kernel
  have listed : Needs steppedTree place entry (place.resolve "/x.v") :=
    .listed (.entry own) (found?_eq_some_iff.mp script).2 List.mem_cons_self (by decide +kernel)
      (by decide +kernel)
  obtain ⟨x, hx, leads⟩ := (exact (place.resolve "/x.v")).mpr ⟨listed, by decide +kernel⟩
  rw [written] at hx
  obtain ⟨q, needs, outside, rfl⟩ := (mem_files_iff nested).mp hx
  obtain ⟨file, rfl⟩ := needs.resolves nested inside outside
  rcases nested.leads_or_overclimbs file with back | ⟨-, floor, n, -, names, -, -, -, way⟩
  · -- then the way is the one to the listed file, which leads elsewhere
    rw [back] at leads
    rw [leads] at back
    exact absurd back (by decide +kernel)
  · rw [leads] at way
    have up : .up ∈ (place.resolve "/x.v").parts := by
      rw [way]
      simp
    exact absurd up (by decide +kernel)

end Project

end Gateware
