import Gateware.Project.Reader
import Gateware.Proofs.Project.Sources
import Gateware.Proofs.Project.Visits
import Mathlib.Data.List.Perm.Basic

/-!
# The closure of a project

A project is read from exactly the scripts that are reachable from its entry and from its own
script, each of them read once, and what cannot be read or followed is told once (`ofFile_exact`).
The scripts may source each other in any way.
-/

namespace Gateware

open Text

namespace Closure

/-- A path that the entries lead to, over scripts that are read. -/
inductive Reachable (t : FileTree) (d : Place) (entries : List Path) : Path → Prop
  | entry {p : Path} (h : p ∈ entries) : Reachable t d entries p
  | source {p : Path} {s : Script} {i : Nat} {target : Text} (caller : Reachable t d entries p)
      (read : Script.ofFile t p = .ok s) (line : Sources s i target) (plain : ¬ Computed target) :
      Reachable t d entries (d.resolve target)

/-- A place in a script where something is sourced. -/
structure Occurrence where
  script : Path
  line : Nat
  target : Text
  deriving DecidableEq

def Occurrence.warning (o : Occurrence) : ProjectWarning := .notFollowed o.target o.script

def entries (t : FileTree) (entry other : Path) : List Path :=
  entry.normalize :: if t.isFile other then [other.normalize] else []

/-- The scripts and warnings are those of what the entries reach, and the search for it ends without
a bound on what may be visited. -/
structure Exact (t : FileTree) (d : Place) (entries : List Path) (scripts : List (Path × Script))
    (warnings : List ProjectWarning) : Prop where
  ends : ∃ visited, Visits t d [] entries visited ∧ scripts = visited.filterMap (found? t)
  once : (scripts.map Prod.fst).Nodup
  read : ∀ p s, (p, s) ∈ scripts ↔ Reachable t d entries p ∧ Script.ofFile t p = .ok s
  warned : ∃ (unread : List (Path × Script.Error)) (computed : List Occurrence),
    (unread.map Prod.fst).Nodup ∧
    (∀ p cause, (p, cause) ∈ unread ↔
      Reachable t d entries p ∧ Script.ofFile t p = .error cause) ∧
    computed.Nodup ∧
    (∀ o, o ∈ computed ↔ Reachable t d entries o.script ∧ ∃ s, Script.ofFile t o.script = .ok s ∧
      Sources s o.line o.target ∧ Computed o.target) ∧
    warnings.Perm (unread.map (.unread ·.2) ++ computed.map Occurrence.warning)

variable {t : FileTree} {d : Place}

/-! ### What is visited -/

theorem mem_entries {entry other p : Path} : p ∈ entries t entry other ↔
    p = entry.normalize ∨ t.isFile other = true ∧ p = other.normalize := by
  unfold entries
  cases t.isFile other <;> simp

theorem mem_next {p q : Path} :
    q ∈ next t d p ↔ ∃ s i target, Script.ofFile t p = .ok s ∧ Sources s i target ∧
      ¬ Computed target ∧ q = d.resolve target := by
  unfold next
  cases Script.ofFile t p with
  | error cause => simp
  | ok s =>
    simp only [List.mem_map, List.mem_filter, mem_targets, Bool.not_eq_true', ← isComputed_iff,
      Except.ok.injEq, Bool.not_eq_true]
    constructor
    · rintro ⟨target, ⟨⟨i, line⟩, plain⟩, rfl⟩
      exact ⟨s, i, target, rfl, line, plain, rfl⟩
    · rintro ⟨_, i, target, rfl, line, plain, rfl⟩
      exact ⟨target, ⟨⟨i, line⟩, plain⟩, rfl⟩

theorem Reachable.next {entries : List Path} {p q : Path} (caller : Reachable t d entries p)
    (h : q ∈ next t d p) : Reachable t d entries q := by
  obtain ⟨s, i, target, read, line, plain, rfl⟩ := mem_next.mp h
  exact .source caller read line plain

theorem Visits.mem_iff_reachable {entries visited : List Path}
    (h : Visits t d [] entries visited) (p : Path) :
    p ∈ visited ↔ Reachable t d entries p := by
  constructor
  · intro hp
    exact h.sound (fun p hp => .entry hp) (fun p caller q hq => caller.next hq) p hp
  · intro reach
    obtain ⟨waiting, named⟩ := h.complete
    induction reach with
    | entry hp => simpa using waiting _ hp
    | source _ read line plain ih =>
      simpa using named _ ih _ (mem_next.mpr ⟨_, _, _, read, line, plain, rfl⟩)

/-- The walk of a project is a search that nothing stops short. -/
theorem ofEntries_visits (t : FileTree) (d : Place) (entry other : Path) :
    ∃ visited, Visits t d [] (entries t entry other) visited ∧
      ofEntries t (allTargets t) d entry other = Reached.after t {} visited := by
  unfold ofEntries entries
  simp only
  generalize bound : entry.normalize :: other.normalize :: (allTargets t).map d.resolve = all
  -- all that the two walks can name is known before the first one
  have first : entry.normalize ∈ all := bound ▸ List.mem_cons_self
  have second : other.normalize ∈ all := bound ▸ List.mem_cons_of_mem _ List.mem_cons_self
  have closed : ∀ p ∈ all, ∀ q ∈ next t d p, q ∈ all := by
    intro p _ q hq
    obtain ⟨s, i, target, read, line, -, rfl⟩ := mem_next.mp hq
    have known := mem_allTargets read (mem_targets.mpr ⟨i, line⟩)
    exact bound ▸ List.mem_cons_of_mem _ (List.mem_cons_of_mem _ (List.mem_map_of_mem known))
  obtain ⟨visited, search, same, left⟩ := @walk_visits t d all all [] [entry.normalize] {} closed
    (by simp) (by simpa using first)
  split
  · obtain ⟨visited', search', same', -⟩ := @walk_visits t d all _ _ [other.normalize]
      (walk t d all [entry.normalize] {}).2 closed left (by simpa using second)
    refine ⟨visited ++ visited', search.append search', ?_⟩
    rw [same', same]
    simp [Reached.after]
  · exact ⟨visited, search, same⟩

/-! ### What is told -/

theorem found?_eq_some_iff {p q : Path} {s : Script} :
    found? t p = some (q, s) ↔ p = q ∧ Script.ofFile t p = .ok s := by
  unfold found?
  cases Script.ofFile t p <;> simp

def unread? (t : FileTree) (p : Path) : Option (Path × Script.Error) :=
  match Script.ofFile t p with
  | .error cause => some (p, cause)
  | .ok _ => none

theorem unread?_eq_some_iff {p q : Path} {cause : Script.Error} :
    unread? t p = some (q, cause) ↔ p = q ∧ Script.ofFile t p = .error cause := by
  unfold unread?
  cases Script.ofFile t p <;> simp

def computedIn (t : FileTree) (p : Path) : List Occurrence :=
  match Script.ofFile t p with
  | .error _ => []
  | .ok s => (List.range s.lines.length).filterMap fun i =>
      ((sourceAt? [] s.lines i).filter isComputed).map (⟨p, i, ·⟩)

theorem mem_computedIn {p : Path} {o : Occurrence} :
    o ∈ computedIn t p ↔ o.script = p ∧ ∃ s, Script.ofFile t p = .ok s ∧
      Sources s o.line o.target ∧ Computed o.target := by
  unfold computedIn
  cases Script.ofFile t p with
  | error cause => simp
  | ok s =>
    simp only [List.mem_filterMap, List.mem_range, Option.map_eq_some_iff,
      Option.filter_eq_some_iff, sourceAt?_eq_some_iff, isComputed_iff]
    constructor
    · rintro ⟨i, -, target, ⟨line, computed⟩, rfl⟩
      exact ⟨rfl, s, rfl, line, computed⟩
    · rintro ⟨rfl, _, ⟨⟩, line, computed⟩
      exact ⟨o.line, line.lt_length, o.target, ⟨line, computed⟩, rfl⟩

theorem nodup_computedIn (p : Path) : (computedIn t p).Nodup := by
  unfold computedIn
  cases Script.ofFile t p with
  | error cause => exact List.nodup_nil
  | ok s =>
    refine List.nodup_range.filterMap ?_
    intro i j o hi hj
    obtain ⟨_, -, rfl⟩ := Option.map_eq_some_iff.mp hi
    obtain ⟨_, -, same⟩ := Option.map_eq_some_iff.mp hj
    exact (congrArg Occurrence.line same).symm

theorem told_eq (p : Path) :
    told t p = ((unread? t p).toList.map (.unread ·.2)) ++
      (computedIn t p).map Occurrence.warning := by
  unfold told unread? computedIn
  cases Script.ofFile t p with
  | error cause => rfl
  | ok s =>
    simp only [targets_eq, List.filter_filterMap, List.map_filterMap, Option.map_map,
      Option.toList_none, List.map_nil, List.nil_append]
    rfl

theorem map_fst_sublist {α : Type} {f : Path → Option (Path × α)}
    (keeps : ∀ p q a, f p = some (q, a) → p = q) (l : List Path) :
    ((l.filterMap f).map Prod.fst).Sublist l := by
  induction l with
  | nil => exact .slnil
  | cons p l ih =>
    cases h : f p with
    | none =>
      rw [List.filterMap_cons_none h]
      exact ih.cons p
    | some e =>
      rw [List.filterMap_cons_some h, List.map_cons, ← keeps p e.1 e.2 h]
      exact ih.cons_cons p

theorem mem_found {visited : List Path} {p : Path} {s : Script} :
    (p, s) ∈ visited.filterMap (found? t) ↔ p ∈ visited ∧ Script.ofFile t p = .ok s := by
  simp only [List.mem_filterMap, found?_eq_some_iff]
  constructor
  · rintro ⟨_, held, rfl, read⟩
    exact ⟨held, read⟩
  · rintro ⟨held, read⟩
    exact ⟨p, held, rfl, read⟩

theorem mem_unread {visited : List Path} {p : Path} {cause : Script.Error} :
    (p, cause) ∈ visited.filterMap (unread? t) ↔
      p ∈ visited ∧ Script.ofFile t p = .error cause := by
  simp only [List.mem_filterMap, unread?_eq_some_iff]
  constructor
  · rintro ⟨_, held, rfl, failed⟩
    exact ⟨held, failed⟩
  · rintro ⟨held, failed⟩
    exact ⟨p, held, rfl, failed⟩

theorem mem_computed {visited : List Path} {o : Occurrence} :
    o ∈ visited.flatMap (computedIn t) ↔ o.script ∈ visited ∧
      ∃ s, Script.ofFile t o.script = .ok s ∧ Sources s o.line o.target ∧ Computed o.target := by
  simp only [List.mem_flatMap, mem_computedIn]
  constructor
  · rintro ⟨_, held, rfl, line⟩
    exact ⟨held, line⟩
  · rintro ⟨held, line⟩
    exact ⟨o.script, held, rfl, line⟩

theorem nodup_computed {visited : List Path} (distinct : visited.Nodup) :
    (visited.flatMap (computedIn t)).Nodup := by
  refine List.nodup_flatMap.mpr ⟨fun p _ => nodup_computedIn p, distinct.imp ?_⟩
  intro p q different o hp hq
  exact different ((mem_computedIn.mp hp).1.symm.trans (mem_computedIn.mp hq).1)

theorem told_perm (visited : List Path) :
    (visited.flatMap (told t)).Perm
      ((visited.filterMap (unread? t)).map (.unread ·.2) ++
        (visited.flatMap (computedIn t)).map Occurrence.warning) := by
  rw [List.filterMap_eq_flatMap_toList, List.map_flatMap, List.map_flatMap, funext told_eq]
  exact (List.flatMap_append_perm ..).symm

theorem exact_of_visits {entries visited : List Path} (h : Visits t d [] entries visited) :
    Exact t d entries (Reached.after t {} visited).scripts (Reached.after t {} visited).warnings := by
  have distinct : visited.Nodup := h.nodup.1
  have scripts : ((visited.filterMap (found? t)).map Prod.fst).Sublist visited :=
    map_fst_sublist (fun _ _ _ found => (found?_eq_some_iff.mp found).1) visited
  have causes : ((visited.filterMap (unread? t)).map Prod.fst).Sublist visited :=
    map_fst_sublist (fun _ _ _ failed => (unread?_eq_some_iff.mp failed).1) visited
  unfold Reached.after
  simp only [List.nil_append]
  refine ⟨⟨visited, h, rfl⟩, distinct.sublist scripts, fun p s => ?_,
    visited.filterMap (unread? t), visited.flatMap (computedIn t), distinct.sublist causes,
    fun p cause => ?_, nodup_computed distinct, fun o => ?_, told_perm visited⟩
  · rw [mem_found, h.mem_iff_reachable]
  · rw [mem_unread, h.mem_iff_reachable]
  · rw [mem_computed, h.mem_iff_reachable]

end Closure

namespace Project

open Closure

theorem mem_instances {v : Vendor} {s : Script} {word : Text} :
    word ∈ instances v s ↔ ∃ line w, line ∈ s.lines ∧
      Script.commandName? line = some v.instanceCall.1 ∧
      (Script.splitWords line)[v.instanceCall.2]? = some w ∧ word = Script.unquote w := by
  unfold instances Script.commands
  simp only [List.mem_filterMap, List.mem_filter, beq_iff_eq, Option.map_eq_some_iff]
  constructor
  · rintro ⟨line, ⟨held, call⟩, w, taken, rfl⟩
    exact ⟨line, w, held, call, taken, rfl⟩
  · rintro ⟨line, w, held, call, taken, rfl⟩
    exact ⟨line, ⟨held, call⟩, w, taken, rfl⟩

/-- Reading a project ends, with exactly the scripts that its entries reach, and its libraries are
those that they instantiate. -/
theorem ofFile_exact (t : FileTree) (root entry : Path) {v : Vendor} {inside : Path}
    (named : Vendor.ofProjectEntry? (entry.fileName?.getD []) = some v)
    (placed : (entry.parent?.getD ⟨[]⟩).normalize.after? (directory root).normalize =
      some inside) :
    let dir := (entry.parent?.getD ⟨[]⟩).normalize
    let d : Place := ⟨root, dir⟩
    let start := Closure.entries t entry (dir.join Vendor.projectScript)
    ∃ reading, ofFile t root entry = .ok reading ∧
      Exact t d start reading.scripts reading.warnings ∧
      ∀ word, word ∈ reading.project.libraries ↔ ∃ p s line w, Reachable t d start p ∧
        Script.ofFile t p = .ok s ∧ line ∈ s.lines ∧
        Script.commandName? line = some v.instanceCall.1 ∧
        (Script.splitWords line)[v.instanceCall.2]? = some w ∧ word = Script.unquote w := by
  intro dir d start
  obtain ⟨visited, search, same⟩ := ofEntries_visits t d entry (dir.join Vendor.projectScript)
  have exact := exact_of_visits search
  rw [← same] at exact
  unfold ofFile ofEntry
  simp only [named, placed]
  refine ⟨_, rfl, exact, fun word => ?_⟩
  change word ∈ KeySet.ofList _ ↔ _
  rw [KeySet.mem_ofList, List.mem_flatMap]
  constructor
  · rintro ⟨⟨p, s⟩, held, named'⟩
    obtain ⟨reach, read⟩ := (exact.read p s).mp held
    obtain ⟨line, w, rest⟩ := mem_instances.mp named'
    exact ⟨p, s, line, w, reach, read, rest⟩
  · rintro ⟨p, s, line, w, reach, read, rest⟩
    exact ⟨(p, s), (exact.read p s).mpr ⟨reach, read⟩, mem_instances.mpr ⟨line, w, rest⟩⟩

def scriptNode (text : Text) : Node := .file (some text) ⟨0, 0⟩

/-- An entry that sources itself and, in two ways, a script that sources the entry again. -/
def cyclicTree : FileTree where
  nodes := .ofList [
    (List.map String.toList ["projects"], .directory),
    (List.map String.toList ["projects", "dev"], .directory),
    (List.map String.toList ["projects", "dev", "system_bd.tcl"], scriptNode
      "source ./system_bd.tcl\nsource ../a.tcl\nsource $ad_hdl_dir/projects/b.tcl\nsource $x.tcl\n"),
    (List.map String.toList ["projects", "a.tcl"], scriptNode "source ../b.tcl\nsource gone.tcl\n"),
    (List.map String.toList ["projects", "b.tcl"], scriptNode
      "source ../dev/system_bd.tcl\nad_ip_instance axi_dmac dma\n")]

def cyclicEntry : Path := ⟨"projects/dev/system_bd.tcl"⟩

theorem ofFile_exact_cyclicTree :
    Vendor.ofProjectEntry? (cyclicEntry.fileName?.getD []) = some .xilinx ∧
    ∃ reading, ofFile cyclicTree ⟨[]⟩ cyclicEntry = .ok reading ∧
      (reading.scripts.map Prod.fst).Nodup ∧
      (∃ s, (⟨"projects/b.tcl"⟩, s) ∈ reading.scripts) ∧
      reading.project.libraries.contains "axi_dmac" = true := by
  have named : Vendor.ofProjectEntry? (cyclicEntry.fileName?.getD []) = some .xilinx := by
    decide +kernel
  have placed : (cyclicEntry.parent?.getD ⟨[]⟩).normalize.after? (directory ⟨[]⟩).normalize =
      some ⟨"dev"⟩ := by decide +kernel
  obtain ⟨reading, read, exact, libraries⟩ :=
    ofFile_exact cyclicTree ⟨[]⟩ cyclicEntry named placed
  let place : Place := ⟨⟨[]⟩, ⟨"projects/dev"⟩⟩
  have begun : cyclicEntry ∈ Closure.entries cyclicTree cyclicEntry
      (Path.join ⟨"projects/dev"⟩ Vendor.projectScript) := by decide +kernel
  have across : ⟨"projects/a.tcl"⟩ ∈ next cyclicTree place cyclicEntry := by decide +kernel
  have onward : ⟨"projects/b.tcl"⟩ ∈ next cyclicTree place ⟨"projects/a.tcl"⟩ := by decide +kernel
  have held : found? cyclicTree ⟨"projects/b.tcl"⟩ = some (⟨"projects/b.tcl"⟩,
      ⟨["source ../dev/system_bd.tcl", "ad_ip_instance axi_dmac dma"]⟩) := by decide +kernel
  have reach := ((Reachable.entry begun).next across).next onward
  obtain ⟨-, script⟩ := found?_eq_some_iff.mp held
  refine ⟨named, reading, read, exact.once, ⟨_, (exact.read _ _).mpr ⟨reach, script⟩⟩, ?_⟩
  rw [KeySet.contains_iff, libraries]
  refine ⟨_, _, _, "axi_dmac".toList, reach, script, List.mem_cons_of_mem _ List.mem_cons_self, ?_⟩
  decide +kernel

end Project

end Gateware
