import Gateware.Proofs.FileTree.Place
import Gateware.Proofs.Path.Join
import Mathlib.Data.List.Induction
import Mathlib.Data.List.Infix

/-!
# The way of a path

What a path leads to depends on the places that are met on its way only (`find_congr`), and a tree
that keeps its directories leads wherever it led before (`Grows.place`).
-/

namespace Gateware

open Text

/-- A tree as a file system has it: places have plain names, and stand in directories. -/
structure FileTree.Sound (t : FileTree) : Prop where
  named : ∀ e ∈ t.nodes.entries, ∀ n ∈ e.1, PathPart.Plain n
  held : ∀ l n, t.node? (l ++ [n]) ≠ none → t.node? l = some .directory

namespace FileTree

variable {t u : FileTree} {p : Path} {l l' R : Location} {names : List Text}

/-- A place that one comes to on the way that a path leads. -/
def Meets (t : FileTree) (p : Path) (l : Location) : Prop :=
  ∃ front, front <+: p.steps ∧ front.foldlM t.advance (t.start p) = .ok l

/-- The path leads to a place, then on by the names. -/
def Under (t : FileTree) (R : Location) (names : List Text) (p : Path) : Prop :=
  ∃ front, p.steps = front ++ names.map .name ∧ front.foldlM t.advance (t.start p) = .ok R

/-! ### Trees that agree -/

theorem follow_at (h : u.node? l = t.node? l) (piece : Text) :
    u.follow l piece = t.follow l piece := by
  unfold follow
  rw [h]

theorem follow_congr {ps : List Text}
    (h : ∀ front, front <+: ps.filterMap PathPart.inner? → ∀ l',
      front.foldlM t.advance l = .ok l' → u.node? l' = t.node? l') :
    ps.foldlM u.follow l = ps.foldlM t.follow l := by
  induction ps generalizing l with
  | nil => rfl
  | cons piece ps ih =>
    have here : u.node? l = t.node? l := h [] List.nil_prefix l rfl
    have first : u.follow l piece = t.follow l piece := follow_at here piece
    rw [List.foldlM_cons, List.foldlM_cons, first]
    cases next : t.follow l piece with
    | error e => rfl
    | ok l₁ =>
      refine ih fun front before l' led => ?_
      cases reads : PathPart.inner? piece with
      | none =>
        obtain ⟨-, rfl⟩ := (follow_still reads).mp next
        refine h front ?_ l' led
        rwa [List.filterMap_cons_none reads]
      | some c =>
        rw [follow_step reads] at next
        refine h (c :: front) ?_ l' ?_
        · rw [List.filterMap_cons_some reads]
          exact (List.prefix_cons_inj c).mpr before
        · rw [List.foldlM_cons, bind_eq_ok]
          exact ⟨l₁, next, led⟩

theorem start_congr (h : u.here = t.here) (p : Path) : u.start p = t.start p := by
  unfold start
  rw [h]

theorem place_congr (here : u.here = t.here)
    (h : ∀ l, Meets t p l → u.node? l = t.node? l) : u.place p = t.place p := by
  unfold place
  cases FileError.ofPath? p with
  | some e => rfl
  | none =>
    change List.foldlM u.follow (u.start p) _ = List.foldlM t.follow (t.start p) _
    rw [start_congr here]
    exact follow_congr fun front before l' led => h l' ⟨front, before, led⟩

theorem follow_of_place (h : t.place p = .ok l) :
    (pieces (· == Path.separator) p.text).foldlM t.follow (t.start p) = .ok l := by
  unfold place at h
  split at h
  · cases h
  · exact h

theorem steps_of_place (h : t.place p = .ok l) : p.steps.foldlM t.advance (t.start p) = .ok l :=
  steps_of_follow (follow_of_place h)

/-- Two trees find the same by a path when they agree on all that it meets. -/
theorem find_congr (here : u.here = t.here)
    (h : ∀ l, Meets t p l → u.node? l = t.node? l) : u.find p = t.find p := by
  unfold find
  rw [place_congr here h]
  cases placed : t.place p with
  | error e => rfl
  | ok l =>
    have last : u.node? l = t.node? l := h l ⟨p.steps, List.prefix_rfl, steps_of_place placed⟩
    simp only [Except.bind, last]

/-! ### Steps by name -/

theorem advance_name {n : Text} (h : t.advance l (.name n) = .ok l') : l' = l ++ [n] := by
  unfold advance at h
  split at h
  · cases h
  · cases h
  · simp only at h
    split at h
    · cases h
    · exact (Except.ok.inj h).symm

theorem advance_up (h : t.advance l .up = .ok l') : l' = l.dropLast := by
  unfold advance at h
  split at h
  · cases h
  · cases h
  · exact (Except.ok.inj h).symm

theorem advance_names (h : (names.map .name).foldlM t.advance l = .ok l') : l' = l ++ names := by
  induction names generalizing l with
  | nil => exact (Except.ok.inj h).symm.trans (List.append_nil l).symm
  | cons n names ih =>
    rw [List.map_cons, List.foldlM_cons, bind_eq_ok] at h
    obtain ⟨next, first, rest⟩ := h
    rw [ih rest, advance_name first, List.append_assoc, List.singleton_append]

theorem foldlM_one {c : PathPart} : [c].foldlM t.advance l = .ok l' ↔ t.advance l c = .ok l' := by
  rw [List.foldlM_cons, bind_eq_ok]
  constructor
  · rintro ⟨next, taken, stop⟩
    cases stop
    exact taken
  · exact fun taken => ⟨l', taken, rfl⟩

/-- Where a way leads on from, there is a directory. -/
theorem directory_of_onward {front rest : List PathPart} {c : PathPart}
    (h : (front ++ c :: rest).foldlM t.advance l = .ok l') :
    ∃ m, front.foldlM t.advance l = .ok m ∧ t.node? m = some .directory := by
  rw [List.foldlM_append, bind_eq_ok] at h
  obtain ⟨m, led, onward⟩ := h
  rw [List.foldlM_cons, bind_eq_ok] at onward
  obtain ⟨next, first, -⟩ := onward
  exact ⟨m, led, directory_of_advance first⟩

/-- A path that leads on by names meets directories, and the places of the names. -/
theorem meets_under (under : Under t R names p) (h : Meets t p l) :
    t.node? l = some .directory ∨ ∃ front, front <+: names ∧ l = R ++ front := by
  obtain ⟨root, steps, led⟩ := under
  obtain ⟨front, before, met⟩ := h
  rw [steps] at before
  rcases List.prefix_or_prefix_of_prefix before (List.prefix_append root _) with early | late
  · obtain ⟨rest, rfl⟩ := early
    cases rest with
    | nil =>
      rw [List.append_nil, met] at led
      cases led
      exact .inr ⟨[], List.nil_prefix, (List.append_nil _).symm⟩
    | cons c rest =>
      obtain ⟨m, led', directory⟩ := directory_of_onward led
      rw [met] at led'
      cases led'
      exact .inl directory
  · obtain ⟨onward, rfl⟩ := late
    rw [List.foldlM_append, led] at met
    obtain ⟨own, before', rfl⟩ :=
      List.prefix_map_iff.mp ((List.prefix_append_right_inj root).mp before)
    exact .inr ⟨own, before', advance_names met⟩

/-! ### Trees that grow -/

/-- The directories stay, and files stay files. -/
structure Grows (t u : FileTree) : Prop where
  here : u.here = t.here
  directory : ∀ l, t.node? l = some .directory → u.node? l = some .directory
  file : ∀ l text time, t.node? l = some (.file text time) →
    ∃ text' time', u.node? l = some (.file text' time')

theorem Grows.refl (t : FileTree) : Grows t t := ⟨rfl, fun _ h => h, fun _ _ _ h => ⟨_, _, h⟩⟩

theorem Grows.trans {v : FileTree} (h : Grows t u) (h' : Grows u v) : Grows t v where
  here := h'.here.trans h.here
  directory l hl := h'.directory l (h.directory l hl)
  file l _ _ hl := by
    obtain ⟨text, time, kept⟩ := h.file l _ _ hl
    exact h'.file l text time kept

theorem Grows.advance (grows : Grows t u) {c : PathPart} (h : t.advance l c = .ok l') :
    u.advance l c = .ok l' := by
  have directory := directory_of_advance h
  unfold FileTree.advance at h ⊢
  rw [grows.directory l directory]
  rwa [directory] at h

theorem Grows.foldlM_advance (grows : Grows t u) {steps : List PathPart}
    (h : steps.foldlM t.advance l = .ok l') : steps.foldlM u.advance l = .ok l' := by
  induction steps generalizing l with
  | nil => exact h
  | cons c steps ih =>
    rw [List.foldlM_cons, bind_eq_ok] at h ⊢
    obtain ⟨next, first, rest⟩ := h
    exact ⟨next, grows.advance first, ih rest⟩

theorem Grows.foldlM_follow (grows : Grows t u) {ps : List Text}
    (h : ps.foldlM t.follow l = .ok l') : ps.foldlM u.follow l = .ok l' := by
  induction ps generalizing l with
  | nil => exact h
  | cons piece ps ih =>
    rw [List.foldlM_cons, bind_eq_ok] at h ⊢
    obtain ⟨next, first, rest⟩ := h
    refine ⟨next, ?_, ih rest⟩
    cases reads : PathPart.inner? piece with
    | none =>
      obtain ⟨directory, same⟩ := (follow_still reads).mp first
      exact (follow_still reads).mpr ⟨grows.directory l directory, same⟩
    | some c =>
      rw [follow_step reads] at first ⊢
      exact grows.advance first

theorem Grows.place (grows : Grows t u) (h : t.place p = .ok l) : u.place p = .ok l := by
  have led := follow_of_place h
  unfold FileTree.place at h ⊢
  split at h
  · cases h
  · change List.foldlM u.follow (u.start p) _ = _
    rw [start_congr grows.here]
    exact grows.foldlM_follow led

/-! ### Sound trees -/

/-- What stands in a sound tree stands in directories all the way. -/
theorem Sound.above (sound : t.Sound) {rest : List Text} (more : rest ≠ [])
    (h : t.node? (l ++ rest) ≠ none) : t.node? l = some .directory := by
  induction rest using List.reverseRecOn with
  | nil => exact absurd rfl more
  | append_singleton rest n ih =>
    rw [← List.append_assoc] at h
    have directory := sound.held _ _ h
    cases rest with
    | nil => rwa [List.append_nil] at directory
    | cons m rest =>
      refine ih (List.cons_ne_nil m rest) ?_
      rw [directory]
      nofun

/-- It is enough to look at the places that the tree holds. -/
theorem sound_of_entries (named : ∀ e ∈ t.nodes.entries, ∀ n ∈ e.1, PathPart.Plain n)
    (held : ∀ e ∈ t.nodes.entries, t.node? e.1.dropLast = some .directory) : t.Sound where
  named := named
  held l n there := by
    unfold node? at there
    rw [if_neg (by simp)] at there
    obtain ⟨node, found⟩ := Option.ne_none_iff_exists'.mp there
    have directory := held _ (Table.get?_eq_some_iff.mp found)
    rwa [List.dropLast_concat] at directory

/-! ### Normal paths -/

/-- A way that is there is not changed when steps up are taken out with the names before them. -/
theorem follow_reduce {parts : List PathPart}
    (h : (parts.filter PathPart.isStep).foldlM t.advance l = .ok l') :
    ((Path.reduce parts).filter PathPart.isStep).foldlM t.advance l = .ok l' := by
  induction parts using List.reverseRecOn generalizing l' with
  | nil => exact h
  | append_singleton parts c ih =>
    rw [List.filter_append, List.foldlM_append, bind_eq_ok] at h
    obtain ⟨m, led, last⟩ := h
    have before := ih led
    rw [Path.reduce_concat]
    unfold Path.reduce at before
    generalize parts.foldl Path.push [] = stack at before
    unfold Path.push
    split
    · exact (Except.ok.inj last) ▸ before
    · rename_i n rest
      rw [List.reverse_cons, List.filter_append, List.foldlM_append, bind_eq_ok] at before
      obtain ⟨above, led', named⟩ := before
      have down : m = above ++ [n] := advance_name (foldlM_one.mp named)
      have up : l' = m.dropLast := advance_up (foldlM_one.mp last)
      rw [up, down, List.dropLast_concat]
      exact led'
    · rw [List.reverse_cons, List.filter_append, List.foldlM_append, bind_eq_ok]
      exact ⟨m, before, last⟩

end FileTree

end Gateware
