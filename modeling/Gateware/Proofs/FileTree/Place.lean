import Gateware.FileTree.Basic
import Gateware.Proofs.Path.Parts

/-!
# Where a path leads

A path that leads to a file leads there by its steps alone (`find_file_iff`). So paths that are
written from the same parts, and have each led to some file, lead to the same one in every tree
(`find_of_parts_eq`).
-/

namespace Gateware.FileTree

open Text

variable {t : FileTree} {l l' : Location} {ps : List Text}

theorem bind_eq_ok {ε α β : Type} {x : Except ε α} {f : α → Except ε β} {b : β} :
    (x >>= f) = .ok b ↔ ∃ a, x = .ok a ∧ f a = .ok b := by
  cases x with
  | error e => simp [bind, Except.bind]
  | ok a => simp [bind, Except.bind]

/-! ### Steps -/

/-- One step on from a place, which must be a directory. -/
def advance (t : FileTree) (l : Location) (c : PathPart) : Except FileError Location :=
  match t.node? l with
  | none => .error .notFound
  | some (.file _ _) => .error .notDirectory
  | some .directory =>
    match c with
    | .up => .ok l.dropLast
    | .name n => if nameLimit < byteSize n then .error .nameTooLong else .ok (l ++ [n])
    | _ => .ok l

theorem follow_step {piece : Text} {c : PathPart} (h : PathPart.inner? piece = some c) :
    t.follow l piece = t.advance l c := by
  have step := PathPart.isStep_of_inner? h
  unfold follow advance
  rw [h]
  cases t.node? l with
  | none => rfl
  | some n =>
    cases n with
    | file text time => rfl
    | directory =>
      cases c with
      | up => rfl
      | name n => rfl
      | root => cases step
      | here => cases step

theorem follow_still {piece : Text} (h : PathPart.inner? piece = none) :
    t.follow l piece = .ok l' ↔ t.node? l = some .directory ∧ l' = l := by
  unfold follow
  rw [h]
  cases t.node? l with
  | none => simp
  | some n =>
    cases n with
    | file text time => simp
    | directory => simp [eq_comm]

theorem directory_of_advance {c : PathPart} (h : t.advance l c = .ok l') :
    t.node? l = some .directory := by
  unfold advance at h
  split at h
  · cases h
  · cases h
  · assumption

/-! ### Pieces and steps -/

theorem steps_of_follow (h : ps.foldlM t.follow l = .ok l') :
    (ps.filterMap PathPart.inner?).foldlM t.advance l = .ok l' := by
  induction ps generalizing l with
  | nil => exact h
  | cons piece ps ih =>
    rw [List.foldlM_cons, bind_eq_ok] at h
    obtain ⟨next, first, rest⟩ := h
    cases reads : PathPart.inner? piece with
    | none =>
      obtain ⟨-, rfl⟩ := (follow_still reads).mp first
      rw [List.filterMap_cons_none reads]
      exact ih rest
    | some c =>
      rw [follow_step reads] at first
      rw [List.filterMap_cons_some reads, List.foldlM_cons, bind_eq_ok]
      exact ⟨next, first, ih rest⟩

/-- A piece that is no step asks for a directory, as does the step that comes after it. -/
theorem follow_of_steps (ends : ∀ last ∈ ps.getLast?, PathPart.inner? last ≠ none)
    (h : (ps.filterMap PathPart.inner?).foldlM t.advance l = .ok l') :
    ps.foldlM t.follow l = .ok l' := by
  induction ps generalizing l with
  | nil => exact h
  | cons piece ps ih =>
    have later : ∀ last ∈ ps.getLast?, PathPart.inner? last ≠ none := by
      intro last hl
      refine ends last ?_
      rw [List.getLast?_cons, Option.mem_def.mp hl]
      rfl
    rw [List.foldlM_cons, bind_eq_ok]
    cases reads : PathPart.inner? piece with
    | some c =>
      rw [List.filterMap_cons_some reads, List.foldlM_cons, bind_eq_ok] at h
      obtain ⟨next, first, rest⟩ := h
      exact ⟨next, (follow_step reads).trans first, ih later rest⟩
    | none =>
      rw [List.filterMap_cons_none reads] at h
      refine ⟨l, (follow_still reads).mpr ⟨?_, rfl⟩, ih later h⟩
      cases last : ps.getLast? with
      | none =>
        rw [List.getLast?_eq_none_iff] at last
        subst last
        exact absurd reads (ends piece rfl)
      | some w =>
        obtain ⟨c, step⟩ := Option.ne_none_iff_exists'.mp (later w last)
        have mem : c ∈ ps.filterMap PathPart.inner? :=
          List.mem_filterMap.mpr ⟨w, List.mem_of_getLast? last, step⟩
        obtain ⟨first, rest, shape⟩ := List.exists_cons_of_ne_nil (List.ne_nil_of_mem mem)
        rw [shape, List.foldlM_cons, bind_eq_ok] at h
        obtain ⟨next, taken, -⟩ := h
        exact directory_of_advance taken

theorem ends_of_file (nonempty : ps ≠ []) (h : ps.foldlM t.follow l = .ok l') {text : Option Text}
    {time : Timestamp} (file : t.node? l' = some (.file text time)) :
    ∀ last ∈ ps.getLast?, PathPart.inner? last ≠ none := by
  intro last hl still
  obtain ⟨above, rfl⟩ := List.getLast?_eq_some_iff.mp hl
  rw [List.foldlM_append, bind_eq_ok] at h
  obtain ⟨place, -, h⟩ := h
  rw [List.foldlM_cons, bind_eq_ok] at h
  obtain ⟨next, taken, h⟩ := h
  obtain ⟨directory, rfl⟩ := (follow_still still).mp taken
  cases h
  rw [directory] at file
  cases file

theorem advance_place {t t' : FileTree} {l a b : Location} {c : PathPart}
    (h : t.advance l c = .ok a) (h' : t'.advance l c = .ok b) : a = b := by
  unfold advance at h h'
  split at h
  · cases h
  · cases h
  split at h'
  · cases h'
  · cases h'
  cases c with
  | name n =>
    by_cases long : nameLimit < byteSize n
    · simp [long] at h
    · simp only [long, if_false] at h h'
      exact Except.ok.inj (h.symm.trans h')
  | _ => exact Except.ok.inj (h.symm.trans h')

theorem advance_places {t t' : FileTree} {steps : List PathPart} {l a b : Location}
    (h : steps.foldlM t.advance l = .ok a) (h' : steps.foldlM t'.advance l = .ok b) : a = b := by
  induction steps generalizing l with
  | nil => exact Except.ok.inj (h.symm.trans h')
  | cons c steps ih =>
    rw [List.foldlM_cons, bind_eq_ok] at h h'
    obtain ⟨next, first, rest⟩ := h
    obtain ⟨next', first', rest'⟩ := h'
    obtain rfl := advance_place first first'
    exact ih rest rest'

/-! ### Files -/

def start (t : FileTree) (p : Path) : Location := if p.isAbsolute then [] else t.here

/-- No separator and no point stands at the end of the path. -/
def EndsInStep (p : Path) : Prop :=
  ∀ last ∈ (pieces (· == Path.separator) p.text).getLast?, PathPart.inner? last ≠ none

theorem find_eq_ok {p : Path} {n : Node} :
    t.find p = .ok (l, n) ↔ t.place p = .ok l ∧ t.node? l = some n := by
  unfold find
  cases t.place p with
  | error e => simp [Except.bind]
  | ok place =>
    simp only [Except.bind]
    constructor
    · intro h
      split at h
      · rename_i held
        cases h
        exact ⟨rfl, held⟩
      · cases h
    · rintro ⟨same, held⟩
      cases same
      rw [held]

theorem find_file_iff {p : Path} {text : Option Text} {time : Timestamp} :
    t.find p = .ok (l, .file text time) ↔
      FileError.ofPath? p = none ∧ EndsInStep p ∧ p.steps.foldlM t.advance (t.start p) = .ok l ∧
        t.node? l = some (.file text time) := by
  rw [find_eq_ok]
  unfold place
  constructor
  · rintro ⟨placed, file⟩
    split at placed
    · cases placed
    · rename_i sound
      exact ⟨sound, ends_of_file (pieces_ne_nil _ _) placed file, steps_of_follow placed, file⟩
  · rintro ⟨sound, ends, steps, file⟩
    rw [sound]
    exact ⟨follow_of_steps ends steps, file⟩

/-- A path that has led to a file leads wherever another path of the same parts leads to one. -/
theorem find_of_parts_eq {t t' : FileTree} {p q : Path} (same : p.parts = q.parts)
    {l l' : Location} {text text' : Option Text} {time time' : Timestamp}
    (once : t.find p = .ok (l, .file text time)) (now : t'.find q = .ok (l', .file text' time')) :
    t'.find p = .ok (l', .file text' time') := by
  obtain ⟨sound, ends, -, -⟩ := find_file_iff.mp once
  obtain ⟨-, -, steps, file⟩ := find_file_iff.mp now
  have absolute : p.isAbsolute = q.isAbsolute := by
    rw [Bool.eq_iff_iff, Path.isAbsolute_iff, Path.isAbsolute_iff, same]
  have route : p.steps = q.steps := by
    rw [Path.steps_eq, Path.steps_eq, same]
  have origin : t'.start p = t'.start q := by
    unfold start
    rw [absolute]
  exact find_file_iff.mpr ⟨sound, ends, route ▸ origin ▸ steps, file⟩

end Gateware.FileTree
