import Gateware.Proofs.FileTree.Reading
import Gateware.Proofs.Project.Closure

/-!
# Projects in two trees

The search through the scripts of a project has one outcome (`Visits.unique`) and looks at nothing
but the scripts that it reaches (`Visits.congr`). So a project is the same in every tree in which its
entries and what they reach are found alike (`ofFile_congr`).
-/

namespace Gateware

namespace Closure

variable {t u : FileTree} {d : Place} {seen pending visited visited' : List Path}

theorem Visits.unique (h : Visits t d seen pending visited)
    (h' : Visits t d seen pending visited') : visited = visited' := by
  induction h generalizing visited' with
  | done =>
    cases h'
    rfl
  | again old _ ih =>
    cases h' with
    | again _ rest => exact ih rest
    | first new _ => exact absurd old new
  | first new _ ih =>
    cases h' with
    | again old _ => exact absurd old new
    | first _ rest => exact congrArg _ (ih rest)

theorem Visits.congr (h : Visits t d seen pending visited)
    (same : ∀ p ∈ visited, Script.ofFile u p = Script.ofFile t p) :
    Visits u d seen pending visited := by
  induction h with
  | done => exact .done
  | again old _ ih => exact .again old (ih same)
  | @first _ _ _ p new _ ih =>
    refine .first new ?_
    have here : next u d p = next t d p := by
      unfold next
      rw [same p List.mem_cons_self]
    rw [here]
    exact ih fun q hq => same q (List.mem_cons_of_mem p hq)

theorem Reached.after_congr (same : ∀ p ∈ visited, Script.ofFile u p = Script.ofFile t p)
    (r : Reached) : r.after u visited = r.after t visited := by
  have found : visited.filterMap (found? u) = visited.filterMap (found? t) := by
    refine List.filterMap_congr fun p hp => ?_
    unfold found?
    rw [same p hp]
  have warned : visited.flatMap (told u) = visited.flatMap (told t) := by
    refine List.flatMap_congr fun p hp => ?_
    unfold told
    rw [same p hp]
  unfold Reached.after
  rw [found, warned]

/-- The walks end alike, although each knows the names of its own tree only. -/
theorem ofEntries_congr {entry other : Path} (script : u.isFile other = t.isFile other)
    (same : ∀ p, Reachable t d (entries t entry other) p →
      Script.ofFile u p = Script.ofFile t p) :
    ofEntries u (allTargets u) d entry other = ofEntries t (allTargets t) d entry other := by
  obtain ⟨visited, search, reached⟩ := ofEntries_visits t d entry other
  obtain ⟨visited', search', reached'⟩ := ofEntries_visits u d entry other
  have alike : ∀ p ∈ visited, Script.ofFile u p = Script.ofFile t p := fun p hp =>
    same p ((search.mem_iff_reachable p).mp hp)
  have starts : entries u entry other = entries t entry other := by
    unfold entries
    rw [script]
  rw [starts] at search'
  obtain rfl := (search.congr alike).unique search'
  rw [reached, reached', Reached.after_congr alike]

end Closure

namespace Project

open Closure

variable {t u : FileTree} {root entry : Path}

/-- Where the scripts of the project with the entry run. -/
def placeOf (root entry : Path) : Place := ⟨root, (entry.parent?.getD ⟨[]⟩).normalize⟩

/-- A script of the project names the script at the path. -/
def Names (t : FileTree) (root entry p : Path) : Prop :=
  ∃ caller, Reachable t (placeOf root entry)
      (entries t entry ((placeOf root entry).directory.join Vendor.projectScript)) caller ∧
    p ∈ next t (placeOf root entry) caller

theorem ofFile_congr (first : u.find entry.normalize = t.find entry.normalize)
    (own : u.isFile ((placeOf root entry).directory.join Vendor.projectScript) =
      t.isFile ((placeOf root entry).directory.join Vendor.projectScript))
    (second : u.find ((placeOf root entry).directory.join Vendor.projectScript).normalize =
      t.find ((placeOf root entry).directory.join Vendor.projectScript).normalize)
    (named : ∀ p, Names t root entry p → u.find p = t.find p) :
    ofFile u root entry = ofFile t root entry := by
  have same := @ofEntries_congr t u (placeOf root entry) entry _ own fun p reach => by
    refine Script.ofFile_congr ?_
    cases reach with
    | entry begun =>
      rcases mem_entries.mp begun with rfl | ⟨-, rfl⟩
      · exact first
      · exact second
    | source caller read line plain =>
      exact named _ ⟨_, caller, mem_next.mpr ⟨_, _, _, read, line, plain, rfl⟩⟩
  unfold placeOf at same
  unfold ofFile ofEntry
  simp only [same]

end Project

end Gateware
