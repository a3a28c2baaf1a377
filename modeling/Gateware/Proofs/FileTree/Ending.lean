import Gateware.Proofs.FileTree.Following
import Gateware.Proofs.Path.Below

/-!
# Where a path ends

A path ends where it cannot be followed further, or else where it leads. A normal path climbs first
and leads on by names then. So in a tree that grows it finds what it found before, as long as it
ends at no place that is new in the end (`Growth.find`).
-/

namespace Gateware

open Text

namespace FileTree

variable {t u w : FileTree} {p : Path} {l l' : Location} {ps : List Text} {New : Location → Prop}

/-! ### Ends -/

/-- The last place to which the pieces lead from a place. -/
def halt (t : FileTree) (l : Location) : List Text → Location
  | [] => l
  | piece :: rest =>
    match t.follow l piece with
    | .ok next => t.halt next rest
    | .error _ => l

/-- The place at which following the path ends. -/
def endOf (t : FileTree) (p : Path) : Location :=
  t.halt (t.start p) (pieces (· == Path.separator) p.text)

/-- What the pieces lead to from a place, and where that is. -/
def seek (t : FileTree) (l : Location) (ps : List Text) : Except FileError (Location × Node) :=
  (ps.foldlM t.follow l).bind fun l =>
    match t.node? l with
    | some n => .ok (l, n)
    | none => .error .notFound

theorem find_eq_seek (t : FileTree) (p : Path) : t.find p =
    match FileError.ofPath? p with
    | some e => .error e
    | none => t.seek (t.start p) (pieces (· == Path.separator) p.text) := by
  unfold find place
  cases FileError.ofPath? p <;> rfl

theorem follow_none (h : t.node? l = none) (piece : Text) :
    t.follow l piece = .error .notFound := by
  unfold follow
  rw [h]

theorem follow_file {text : Option Text} {time : Timestamp}
    (h : t.node? l = some (.file text time)) (piece : Text) :
    t.follow l piece = .error .notDirectory := by
  unfold follow
  rw [h]

theorem directory_of_follow {piece : Text} (h : t.follow l piece = .ok l') :
    t.node? l = some .directory := by
  cases node : t.node? l with
  | none =>
    rw [follow_none node] at h
    cases h
  | some n =>
    cases n with
    | directory => rfl
    | file text time =>
      rw [follow_file node] at h
      cases h

theorem seek_of_error {piece : Text} {e : FileError} (h : t.follow l piece = .error e)
    (rest : List Text) : t.seek l (piece :: rest) = .error e := by
  unfold seek
  rw [List.foldlM_cons, h]
  rfl

theorem halt_of_error {piece : Text} {e : FileError} (h : t.follow l piece = .error e)
    (rest : List Text) : t.halt l (piece :: rest) = l := by
  rw [halt, h]

theorem seek_of_follow {piece : Text} (h : t.follow l piece = .ok l') (rest : List Text) :
    t.seek l (piece :: rest) = t.seek l' rest := by
  unfold seek
  rw [List.foldlM_cons, h]
  rfl

theorem halt_of_follow {piece : Text} (h : t.follow l piece = .ok l') (rest : List Text) :
    t.halt l (piece :: rest) = t.halt l' rest := by
  rw [halt, h]

theorem seek_append (h : ps.foldlM t.follow l = .ok l') (rest : List Text) :
    t.seek l (ps ++ rest) = t.seek l' rest := by
  unfold seek
  rw [List.foldlM_append, h]
  rfl

theorem halt_append (h : ps.foldlM t.follow l = .ok l') (rest : List Text) :
    t.halt l (ps ++ rest) = t.halt l' rest := by
  induction ps generalizing l with
  | nil =>
    cases h
    rfl
  | cons piece ps ih =>
    rw [List.foldlM_cons, bind_eq_ok] at h
    obtain ⟨next, first, later⟩ := h
    rw [List.cons_append, halt_of_follow first]
    exact ih later

/-! ### Climbing and falling -/

theorem Sound.up (sound : t.Sound) (h : t.node? l = some .directory) :
    t.node? l.dropLast = some .directory := by
  rcases List.eq_nil_or_concat l with rfl | ⟨above, n, rfl⟩
  · exact h
  · rw [List.concat_eq_append] at h ⊢
    rw [List.dropLast_concat]
    exact sound.held above n (by rw [h]; nofun)

theorem climb (sound : t.Sound) (h : t.node? l = some .directory)
    (climbs : ∀ piece ∈ ps, ∀ n, PathPart.inner? piece ≠ some (.name n)) :
    ∃ l', ps.foldlM t.follow l = .ok l' := by
  induction ps generalizing l with
  | nil => exact ⟨l, rfl⟩
  | cons piece ps ih =>
    have later : ∀ piece ∈ ps, ∀ n, PathPart.inner? piece ≠ some (.name n) :=
      fun q hq => climbs q (List.mem_cons_of_mem piece hq)
    have first : ∃ next, t.follow l piece = .ok next ∧ t.node? next = some .directory := by
      unfold follow
      rw [h]
      simp only
      split
      · exact ⟨l.dropLast, rfl, sound.up h⟩
      · rename_i n named
        exact absurd named (climbs piece List.mem_cons_self n)
      · exact ⟨l, rfl, h⟩
    obtain ⟨next, taken, directory⟩ := first
    obtain ⟨l', led⟩ := ih directory later
    refine ⟨l', ?_⟩
    rw [List.foldlM_cons, taken]
    exact led

/-- A piece that does not climb leads on to the same place or to one in it. -/
theorem follow_falls {piece : Text} (falls : PathPart.inner? piece ≠ some .up)
    (h : t.follow l piece = .ok l') : l' = l ∨ ∃ n, l' = l ++ [n] := by
  have directory := directory_of_follow h
  unfold follow at h
  rw [directory] at h
  simp only at h
  split at h
  · rename_i climbs
    exact absurd climbs falls
  · rename_i n _
    split at h
    · cases h
    · exact .inr ⟨n, (Except.ok.inj h).symm⟩
  · exact .inl (Except.ok.inj h).symm

/-! ### Trees that grow on -/

/-- The tree `u` stands between `t` and `w`, and holds what `t` holds apart from new places. -/
structure Growth (t u w : FileTree) (New : Location → Prop) : Prop where
  before : Grows t u
  after : Grows u w
  kept : ∀ l, ¬ New l → u.node? l = t.node? l

namespace Growth

variable (sound : t.Sound) (growth : Growth t u w New)

include sound growth

/-- Below a place that was missing nothing is found, if the way ends at no new place. Its directories
can all be new. -/
theorem seek_missing (missing : t.node? l = none)
    (falls : ∀ piece ∈ ps, PathPart.inner? piece ≠ some .up) (apart : ¬ New (w.halt l ps)) :
    u.seek l ps = .error .notFound := by
  induction ps generalizing l with
  | nil =>
    have here : u.node? l = none := (growth.kept l apart).trans missing
    unfold seek
    rw [List.foldlM_nil]
    change (match u.node? l with | some n => _ | none => _) = _
    rw [here]
  | cons piece ps ih =>
    cases onward : w.follow l piece with
    | error e =>
      rw [halt_of_error onward] at apart
      exact seek_of_error (follow_none ((growth.kept l apart).trans missing) piece) ps
    | ok next =>
      have directory := directory_of_follow onward
      cases here : u.node? l with
      | none => exact seek_of_error (follow_none here piece) ps
      | some n =>
        cases n with
        | file text time =>
          obtain ⟨text', time', file⟩ := growth.after.file l text time here
          rw [directory] at file
          cases file
        | directory =>
          have taken : u.follow l piece = .ok next :=
            (follow_at (here.trans directory.symm) piece).trans onward
          have below : t.node? next = none := by
            rcases follow_falls (falls piece List.mem_cons_self) onward with rfl | ⟨n, rfl⟩
            · exact missing
            · by_contra there
              rw [sound.held l n there] at missing
              cases missing
          rw [halt_of_follow onward] at apart
          rw [seek_of_follow taken]
          exact ih below (fun q hq => falls q (List.mem_cons_of_mem piece hq)) apart

theorem seek_falling (falls : ∀ piece ∈ ps, PathPart.inner? piece ≠ some .up)
    (apart : ¬ New (w.halt l ps)) : u.seek l ps = t.seek l ps := by
  induction ps generalizing l with
  | nil =>
    unfold seek
    simp only [List.foldlM_nil, pure, Except.pure, Except.bind]
    rw [growth.kept l apart]
  | cons piece ps ih =>
    cases here : t.node? l with
    | none =>
      -- the rest of the way can be new, but nothing stands at its end
      rw [growth.seek_missing sound here falls apart, seek_of_error (follow_none here piece)]
    | some n =>
      cases n with
      | file text time =>
        obtain ⟨text', time', file⟩ := growth.before.file l text time here
        rw [seek_of_error (follow_file file piece), seek_of_error (follow_file here piece)]
      | directory =>
        have same := growth.before.directory l here
        have taken := follow_at (same.trans here.symm) piece
        have onward := follow_at ((growth.after.directory l same).trans here.symm) piece
        cases step : t.follow l piece with
        | error e =>
          rw [seek_of_error step, seek_of_error (taken.trans step)]
        | ok next =>
          rw [halt_of_follow (onward.trans step)] at apart
          rw [seek_of_follow step, seek_of_follow (taken.trans step)]
          exact ih (fun q hq => falls q (List.mem_cons_of_mem piece hq)) apart

/-- A normal path that ends at no new place finds what it found. -/
theorem find (begun : t.node? (t.start p.normalize) = some .directory)
    (apart : ¬ New (w.endOf p.normalize)) : u.find p.normalize = t.find p.normalize := by
  obtain ⟨n, names, steps⟩ := p.steps_normalize
  obtain ⟨front, back, shape, ups, down⟩ := List.filterMap_eq_append_iff.mp steps
  have climbs : ∀ piece ∈ front, ∀ n, PathPart.inner? piece ≠ some (.name n) := by
    intro piece hp m reads
    have mem : PathPart.name m ∈ List.replicate n PathPart.up :=
      ups ▸ List.mem_filterMap.mpr ⟨piece, hp, reads⟩
    exact absurd (List.eq_of_mem_replicate mem) nofun
  have falls : ∀ piece ∈ back, PathPart.inner? piece ≠ some .up := by
    intro piece hp reads
    have mem : PathPart.up ∈ names.map PathPart.name :=
      down ▸ List.mem_filterMap.mpr ⟨piece, hp, reads⟩
    obtain ⟨m, -, same⟩ := List.mem_map.mp mem
    cases same
  obtain ⟨top, climbed⟩ := climb sound begun climbs
  have first := growth.before.foldlM_follow climbed
  have second := growth.after.foldlM_follow first
  rw [find_eq_seek, find_eq_seek]
  unfold endOf at apart
  rw [start_congr growth.after.here, start_congr growth.before.here, shape,
    halt_append second] at apart
  rw [start_congr growth.before.here, shape, seek_append climbed, seek_append first,
    growth.seek_falling sound falls apart]

end Growth

end FileTree

end Gateware
