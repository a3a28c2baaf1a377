import Gateware.Project.Closure
import Mathlib.Data.List.Nodup

/-!
# Visiting scripts

`Visits` is the search through the scripts of a tree, depth first and without any bound on what may
be visited: a derivation of it is a search that ends. The walk that a project makes is one
(`walk_visits`), and a search visits what is reachable, each path once (`mem_iff_reachable`).
-/

namespace Gateware.Closure

open Text

variable {t : FileTree} {d : Place}

/-! ### One script -/

def next (t : FileTree) (d : Place) (p : Path) : List Path :=
  match Script.ofFile t p with
  | .error _ => []
  | .ok s => ((targets s).filter (!isComputed ·)).map d.resolve

def found? (t : FileTree) (p : Path) : Option (Path × Script) :=
  match Script.ofFile t p with
  | .error _ => none
  | .ok s => some (p, s)

def told (t : FileTree) (p : Path) : List ProjectWarning :=
  match Script.ofFile t p with
  | .error cause => [.unread cause]
  | .ok s => ((targets s).filter isComputed).map (.notFollowed · p)

/-- What is known after further paths were visited. -/
def Reached.after (t : FileTree) (r : Reached) (visited : List Path) : Reached where
  scripts := r.scripts ++ visited.filterMap (found? t)
  warnings := r.warnings ++ visited.flatMap (told t)

theorem Reached.after_cons (r : Reached) (p : Path) (visited : List Path) :
    (r.after t [p]).after t visited = r.after t (p :: visited) := by
  unfold after
  cases h : found? t p with
  | none => simp [h]
  | some e => simp [h]

/-- One path as the walk visits it. -/
theorem walk_first {unseen pending : List Path} {p : Path} {r : Reached}
    (h : unseen.contains p = true) :
    walk t d unseen (p :: pending) r =
      walk t d (others p unseen) (next t d p ++ pending) (r.after t [p]) := by
  rw [walk, if_pos h]
  cases read : Script.ofFile t p with
  | error cause => simp [next, Reached.after, found?, told, read]
  | ok s => simp [next, Reached.after, found?, told, read, List.partition_eq_filter_filter]; rfl

/-! ### The search -/

/-- The search visits the pending paths and what they name, in this order, apart from those that
are seen. -/
inductive Visits (t : FileTree) (d : Place) :
    (seen pending visited : List Path) → Prop
  | done {seen : List Path} : Visits t d seen [] []
  | again {seen pending visited : List Path} {p : Path} (old : p ∈ seen)
      (rest : Visits t d seen pending visited) : Visits t d seen (p :: pending) visited
  | first {seen pending visited : List Path} {p : Path} (new : p ∉ seen)
      (rest : Visits t d (p :: seen) (next t d p ++ pending) visited) :
      Visits t d seen (p :: pending) (p :: visited)

theorem fresh_cons {all unseen seen : List Path} (fresh : ∀ q, q ∈ unseen ↔ q ∈ all ∧ q ∉ seen)
    (p : Path) : ∀ q, q ∈ others p unseen ↔ q ∈ all ∧ q ∉ p :: seen := by
  intro q
  unfold others
  rw [List.mem_filter, fresh, bne_iff_ne, List.mem_cons, not_or]
  constructor
  · rintro ⟨⟨known, unvisited⟩, other⟩
    exact ⟨known, other, unvisited⟩
  · rintro ⟨known, other, unvisited⟩
    exact ⟨⟨known, unvisited⟩, other⟩

/-- `unseen` holds what can be reached apart from what is seen, so nothing stops the walk short. -/
theorem walk_visits {all unseen seen pending : List Path} {r : Reached}
    (closed : ∀ p ∈ all, ∀ q ∈ next t d p, q ∈ all)
    (fresh : ∀ p, p ∈ unseen ↔ p ∈ all ∧ p ∉ seen) (inside : ∀ p ∈ pending, p ∈ all) :
    ∃ visited, Visits t d seen pending visited ∧
      (walk t d unseen pending r).2 = r.after t visited ∧
      ∀ p, p ∈ (walk t d unseen pending r).1 ↔ p ∈ all ∧ p ∉ visited.reverse ++ seen := by
  induction h : unseen.length using Nat.strongRecOn generalizing unseen seen pending r with
  | ind n ih =>
    subst h
    -- among walks with as many unseen paths, the pending ones grow fewer
    induction pending generalizing r with
    | nil =>
      rw [walk]
      exact ⟨[], .done, by simp [Reached.after], by simpa using fresh⟩
    | cons p pending later =>
      have rest : ∀ q ∈ pending, q ∈ all := fun q hq => inside q (List.mem_cons_of_mem p hq)
      by_cases new : unseen.contains p = true
      · have known : p ∈ all := inside p List.mem_cons_self
        have unvisited : p ∉ seen := ((fresh p).mp (by simpa using new)).2
        have onward : ∀ q ∈ next t d p ++ pending, q ∈ all := by
          intro q hq
          rcases List.mem_append.mp hq with named | waiting
          · exact closed p known q named
          · exact rest q waiting
        rw [walk_first new]
        obtain ⟨visited, search, same, left⟩ :=
          @ih _ (length_others_lt new) _ (p :: seen) _ (r.after t [p]) (fresh_cons fresh p) onward rfl
        refine ⟨p :: visited, .first unvisited search, ?_, ?_⟩
        · rw [same, Reached.after_cons]
        · simpa using left
      · have old : p ∈ seen := by
          by_contra unvisited
          have : p ∈ unseen := (fresh p).mpr ⟨inside p List.mem_cons_self, unvisited⟩
          exact new (by simpa using this)
        rw [walk, if_neg new]
        obtain ⟨visited, search, same, left⟩ := @later r rest
        exact ⟨visited, .again old search, same, left⟩

namespace Visits

variable {seen pending more visited extra : List Path}

theorem append (h : Visits t d seen pending visited)
    (h' : Visits t d (visited.reverse ++ seen) more extra) :
    Visits t d seen (pending ++ more) (visited ++ extra) := by
  induction h with
  | done => exact h'
  | again old _ ih => exact .again old (ih h')
  | first new _ ih =>
    refine .first new ?_
    change Visits t d _ (next t d _ ++ (_ ++ more)) _
    rw [← List.append_assoc]
    exact ih (by simpa using h')

/-- No path is visited twice. -/
theorem nodup (h : Visits t d seen pending visited) :
    visited.Nodup ∧ ∀ p ∈ visited, p ∉ seen := by
  induction h with
  | done => simp
  | again _ _ ih => exact ih
  | first new _ ih =>
    obtain ⟨distinct, apart⟩ := ih
    refine ⟨List.nodup_cons.mpr ⟨fun again => apart _ again List.mem_cons_self, distinct⟩, ?_⟩
    intro q hq
    rcases List.mem_cons.mp hq with rfl | hq
    · exact new
    · exact fun old => apart q hq (List.mem_cons_of_mem _ old)

theorem sound {P : Path → Prop} (h : Visits t d seen pending visited)
    (start : ∀ p ∈ pending, P p) (step : ∀ p, P p → ∀ q ∈ next t d p, P q) :
    ∀ p ∈ visited, P p := by
  induction h with
  | done => simp
  | again _ _ ih => exact ih fun p hp => start p (List.mem_cons_of_mem _ hp)
  | @first _ pending _ p _ _ ih =>
    have here : P p := start p List.mem_cons_self
    have onward : ∀ q ∈ next t d p ++ pending, P q := by
      intro q hq
      rcases List.mem_append.mp hq with named | waiting
      · exact step p here q named
      · exact start q (List.mem_cons_of_mem p waiting)
    intro q hq
    rcases List.mem_cons.mp hq with rfl | hq
    · exact here
    · exact ih onward q hq

/-- What is pending is visited in the end, and so is what any visited script names. -/
theorem complete (h : Visits t d seen pending visited) :
    (∀ p ∈ pending, p ∈ seen ∨ p ∈ visited) ∧
      ∀ p ∈ visited, ∀ q ∈ next t d p, q ∈ seen ∨ q ∈ visited := by
  induction h with
  | done => simp
  | again old _ ih =>
    obtain ⟨waiting, named⟩ := ih
    refine ⟨?_, named⟩
    intro p hp
    rcases List.mem_cons.mp hp with rfl | hp
    · exact .inl old
    · exact waiting p hp
  | @first seen pending visited p new _ ih =>
    obtain ⟨waiting, named⟩ := ih
    have shift {q : Path} (h : q ∈ p :: seen ∨ q ∈ visited) : q ∈ seen ∨ q ∈ p :: visited := by
      rcases h with h | h
      · rcases List.mem_cons.mp h with rfl | h
        · exact .inr List.mem_cons_self
        · exact .inl h
      · exact .inr (List.mem_cons_of_mem p h)
    refine ⟨?_, ?_⟩
    · intro q hq
      rcases List.mem_cons.mp hq with rfl | hq
      · exact .inr List.mem_cons_self
      · exact shift (waiting q (List.mem_append_right _ hq))
    · intro q hq q' named'
      rcases List.mem_cons.mp hq with rfl | hq
      · exact shift (waiting q' (List.mem_append_left _ named'))
      · exact shift (named q hq q' named')

end Visits

end Gateware.Closure
