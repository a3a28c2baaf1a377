import Gateware.Proofs.Script.Line
import Gateware.Script.Basic

/-!
# Where logical lines begin

The physical lines of a text are cut into runs at the places where a logical line begins (`opensAt`),
and each run makes one logical line (`lines_exact`). No character is lost on the way but white space
and the backslashes at the ends of lines.
-/

namespace Gateware.Script

open Text

variable {l next : Text} {ls : List Text} {i : Nat}

/-! ### Starts and runs -/

/-- A logical line begins with the first line, and where the line before does not end in a backslash
and the line itself does not open with a closing bracket or brace. -/
def opensAt (ls : List Text) (i : Nat) : Bool :=
  i == 0 || ((ls.getD (i - 1) []).getLast? != some '\\' &&
    (ls.getD i []).head? != some ']' && (ls.getD i []).head? != some '}')

def starts (ls : List Text) : List Nat := (List.range ls.length).filter (opensAt ls)

/-- Where the next logical line begins, or where the lines end. -/
def nextStart (ls : List Text) (i : Nat) : Nat := ((starts ls).find? (i < ·)).getD ls.length

/-- The lines from one start up to the next one. -/
def runAt (ls : List Text) (i : Nat) : List Text := (ls.take (nextStart ls i)).drop i

/-- The starts behind the first line. -/
def laterStarts (ls : List Text) : List Nat :=
  ((List.range (ls.length - 1)).map Nat.succ).filter (opensAt ls)

theorem opensAt_one (l next : Text) (ls : List Text) :
    opensAt (l :: next :: ls) 1 = !(continues l || closes next) := by
  rw [Bool.eq_iff_iff]
  simp [opensAt, continues_iff, closes_iff, ← Bool.not_eq_true, and_assoc]

theorem starts_cons (l : Text) (ls : List Text) : starts (l :: ls) = 0 :: laterStarts (l :: ls) := by
  unfold starts laterStarts
  rw [List.length_cons, List.range_succ_eq_map]
  rfl

theorem pos_of_mem_laterStarts (h : i ∈ laterStarts ls) : 0 < i := by
  obtain ⟨behind, -⟩ := List.mem_filter.mp h
  obtain ⟨j, -, rfl⟩ := List.mem_map.mp behind
  exact j.succ_pos

/-- Whether the second line opens decides if it is a start; behind it all is as without the first. -/
theorem laterStarts_cons (l next : Text) (ls : List Text) :
    laterStarts (l :: next :: ls) =
      (if continues l || closes next then laterStarts (next :: ls) else starts (next :: ls)).map
        Nat.succ := by
  have behind : (((List.range ls.length).map Nat.succ).map Nat.succ).filter
      (opensAt (l :: next :: ls)) = (laterStarts (next :: ls)).map Nat.succ := by
    unfold laterStarts
    rw [List.filter_map, List.length_cons, Nat.add_sub_cancel]
    refine congrArg (List.map Nat.succ) (List.filter_congr fun i hi => ?_)
    obtain ⟨j, -, rfl⟩ := List.mem_map.mp hi
    rfl
  have whole : laterStarts (l :: next :: ls) =
      ((1 :: ((List.range ls.length).map Nat.succ).map Nat.succ).filter
        (opensAt (l :: next :: ls))) := by
    unfold laterStarts
    rw [List.length_cons, List.length_cons, Nat.add_sub_cancel, List.range_succ_eq_map]
    rfl
  rw [whole, List.filter_cons, opensAt_one, behind, starts_cons]
  cases continues l || closes next <;> rfl

theorem nextStart_cons (l : Text) (ls : List Text) (i : Nat) :
    nextStart (l :: ls) i = ((laterStarts (l :: ls)).find? (i < ·)).getD (l :: ls).length := by
  unfold nextStart
  rw [starts_cons, List.find?_cons_of_neg (by simp)]

theorem find?_starts (next : Text) (ls : List Text) (i : Nat) (b : Bool) :
    (if b then laterStarts (next :: ls) else starts (next :: ls)).find? (i < ·) =
      (laterStarts (next :: ls)).find? (i < ·) := by
  cases b with
  | true => rfl
  | false => rw [starts_cons]; exact List.find?_cons_of_neg (by simp)

theorem nextStart_succ (l next : Text) (ls : List Text) (i : Nat) :
    nextStart (l :: next :: ls) (i + 1) = nextStart (next :: ls) i + 1 := by
  have shifted : (fun j => decide (i + 1 < j)) ∘ Nat.succ = fun j => decide (i < j) :=
    funext fun j => by simp
  rw [nextStart_cons, nextStart_cons, laterStarts_cons, List.find?_map, shifted, find?_starts,
    List.length_cons]
  cases (laterStarts (next :: ls)).find? (i < ·) <;> rfl

theorem nextStart_zero_joined (h : (continues l || closes next) = true) :
    nextStart (l :: next :: ls) 0 = nextStart (next :: ls) 0 + 1 := by
  have first (p : Nat → Bool) (all : ∀ i ∈ laterStarts (next :: ls), p i = true) :
      (laterStarts (next :: ls)).find? p = (laterStarts (next :: ls)).head? := by
    cases shape : laterStarts (next :: ls) with
    | nil => rfl
    | cons i later => exact List.find?_cons_of_pos (all i (shape ▸ List.mem_cons_self))
  rw [nextStart_cons, nextStart_cons, laterStarts_cons, if_pos h, List.find?_map,
    first ((fun j => decide (0 < j)) ∘ Nat.succ) fun i _ => decide_eq_true i.succ_pos,
    first (fun j => decide (0 < j)) fun i hi => decide_eq_true (pos_of_mem_laterStarts hi)]
  cases (laterStarts (next :: ls)).head? <;> rfl

theorem nextStart_zero_apart (h : (continues l || closes next) = false) :
    nextStart (l :: next :: ls) 0 = 1 := by
  rw [nextStart_cons, laterStarts_cons, h, starts_cons]
  rfl

theorem runAt_succ (l next : Text) (ls : List Text) (i : Nat) :
    runAt (l :: next :: ls) (i + 1) = runAt (next :: ls) i := by
  unfold runAt
  rw [nextStart_succ]
  rfl

theorem runAt_zero (l next : Text) (ls : List Text) :
    runAt (l :: next :: ls) 0 =
      if continues l || closes next then l :: runAt (next :: ls) 0 else [l] := by
  unfold runAt
  split
  · rename_i joined
    rw [nextStart_zero_joined joined]
    rfl
  · rename_i apart
    rw [nextStart_zero_apart (Bool.not_eq_true _ ▸ apart)]
    rfl

theorem runs_cons {r : List Text} {rs : List (List Text)} (h : runs (next :: ls) = r :: rs) :
    runs (l :: next :: ls) =
      if continues l || closes next then (l :: r) :: rs else [l] :: r :: rs := by
  rw [runs, h]
  rfl

/-- The runs are the stretches between the starts. -/
theorem map_runAt_starts (ls : List Text) : (starts ls).map (runAt ls) = runs ls := by
  induction ls with
  | nil => rfl
  | cons l ls ih =>
    cases ls with
    | nil => rfl
    | cons next ls =>
      have later (is : List Nat) : (is.map Nat.succ).map (runAt (l :: next :: ls)) =
          is.map (runAt (next :: ls)) := by
        rw [List.map_map]
        exact List.map_congr_left fun i _ => runAt_succ l next ls i
      rw [starts_cons, List.map_cons] at ih
      rw [runs_cons ih.symm, starts_cons, laterStarts_cons, List.map_cons, later, runAt_zero]
      -- a joined line goes to the front of the first run, another one makes a run of its own
      split
      · rfl
      · rw [starts_cons]
        rfl

/-! ### Logical lines -/

/-- The physical lines of a text, each one normalized. -/
def physicalLines (source : Text) : List Text := (Text.lines source).map normalizeLine

theorem spaced_of_mem_physicalLines {source line : Text} (h : line ∈ physicalLines source) :
    Spaced line := by
  obtain ⟨raw, -, rfl⟩ := List.mem_map.mp h
  exact (settled_normalizeLine raw).spaced

theorem mem_of_mem_runAt {line : Text} (h : line ∈ runAt ls i) : line ∈ ls :=
  List.mem_of_mem_take (List.mem_of_mem_drop h)

theorem solid_joinRun (run : List Text) :
    solid (joinRun run) = run.flatMap fun l => solid (body l) := by
  unfold joinRun
  rw [solid_joinWith, flatMap_solid_filter, List.flatMap_map]

theorem solid_joinLines (ls : List Text) :
    solid (joinLines ls).flatten = ls.flatMap fun l => solid (body l) := by
  unfold joinLines
  rw [solid_flatten, List.flatMap_map]
  simp only [solid_joinRun]
  conv_rhs => rw [← flatten_runs ls, ← List.flatMap_id, List.flatMap_assoc]
  rfl

/-- A text has one logical line for each start, in order: the bodies of the lines of its run, as far
as they are not empty, joined by single spaces. Its characters besides white space are those of the
text without one backslash at the end of each line that has one. -/
theorem lines_exact (source : Text) :
    (Script.ofText source).lines = (starts (physicalLines source)).map (fun i =>
      joinWith " " (((runAt (physicalLines source) i).map fun line =>
        trimEndBy (· == ' ') (withoutBackslash line)).filter fun b => !b.isEmpty)) ∧
    solid (Script.ofText source).lines.flatten =
      (Text.lines source).flatMap (fun raw => withoutBackslash (solid raw)) ∧
    solid source = (Text.lines source).flatMap solid := by
  refine ⟨?_, ?_, (flatMap_solid_lines source).symm⟩
  · change (runs (physicalLines source)).map joinRun = _
    rw [← map_runAt_starts, List.map_map]
    refine List.map_congr_left fun i _ => ?_
    have bodies : (runAt (physicalLines source) i).map body =
        (runAt (physicalLines source) i).map fun line =>
          trimEndBy (· == ' ') (withoutBackslash line) :=
      List.map_congr_left fun line hl =>
        body_of_spaced (spaced_of_mem_physicalLines (mem_of_mem_runAt hl))
    exact congrArg (fun bs : List Text => joinWith " " (bs.filter fun b => !b.isEmpty)) bodies
  · change solid (joinLines (physicalLines source)).flatten = _
    rw [solid_joinLines]
    unfold physicalLines
    rw [List.flatMap_map]
    refine List.flatMap_congr fun raw _ => ?_
    rw [solid_body (settled_normalizeLine raw).spaced.bare, solid_normalizeLine]

end Gateware.Script
