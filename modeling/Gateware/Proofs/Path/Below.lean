import Gateware.Proofs.Path.Join

/-!
# Paths below a path

A path stands below another one when it leads on from there by names. The path above it, its normal
form and what stands between the two are told by these names.
-/

namespace Gateware.Path

/-- The path leads on from another one by the names. -/
structure Below (root : Path) (names : List Text) (p : Path) : Prop where
  steps : p.steps = root.steps ++ names.map .name
  absolute : p.isAbsolute = root.isAbsolute

variable {root p q : Path} {names names' : List Text} {n : Text}

namespace Below

theorem refl (p : Path) : Below p [] p := ⟨(List.append_nil _).symm, rfl⟩

theorem names_inj (h : Below root names p) (h' : Below root names' p) : names = names' := by
  have same := h.steps.symm.trans h'.steps
  rw [List.append_cancel_left_eq] at same
  exact List.map_injective_iff.mpr (fun _ _ => PathPart.name.inj) same

theorem join (h : Below root names p) (plain : PathPart.Plain n) :
    Below root (names ++ [n]) (p.join n) where
  steps := by
    rw [steps_join_plain plain, h.steps, List.map_append, List.append_assoc]
    rfl
  absolute := (isAbsolute_join (head?_of_plain plain)).trans h.absolute

theorem foldl_join (h : Below root names p) (plain : ∀ n ∈ names', PathPart.Plain n) :
    Below root (names ++ names') (names'.foldl Path.join p) := by
  induction names' generalizing names p with
  | nil => rwa [List.append_nil]
  | cons n names' ih =>
    rw [List.append_cons]
    exact ih (h.join (plain n List.mem_cons_self)) fun m hm => plain m (List.mem_cons_of_mem n hm)

/-- A text of names is joined like the names one after another. -/
theorem join_joinWith (h : Below root names p) (plain : ∀ n ∈ names', PathPart.Plain n) :
    Below root (names ++ names') (p.join (Text.joinWith [separator] names')) where
  steps := by
    rw [steps_join (head?_joinWith plain), steps_joinWith plain, h.steps, List.map_append,
      List.append_assoc]
  absolute := (isAbsolute_join (head?_joinWith plain)).trans h.absolute

end Below

/-! ### Parts in front -/

/-- Before the steps of a path stands the root, a single point or nothing. -/
theorem parts_eq_append_steps (p : Path) :
    ∃ lead, p.parts = lead ++ p.steps ∧ (lead = [] ∨ lead = [.root] ∨ lead = [.here]) := by
  obtain ⟨lead, inner, parts, front, tail⟩ := parts_proper p
  have steps : p.steps = inner := by
    rw [steps_eq, parts, List.filter_append, List.filter_eq_self.mpr fun c hc =>
      PathPart.isStep_of_inner? (tail c hc).reads]
    rcases front with rfl | rfl | rfl <;> rfl
  exact ⟨lead, steps ▸ parts, front⟩

/-- What stands after a name are steps. -/
theorem inner_of_mem_tail {c : PathPart} {rest : List PathPart} (h : p.parts = .name n :: rest)
    (hc : c ∈ rest) : c.Inner := by
  obtain ⟨lead, parts, front⟩ := parts_eq_append_steps p
  rw [h] at parts
  rcases front with rfl | rfl | rfl
  · exact inner_of_mem_steps (parts ▸ List.mem_cons_of_mem _ hc)
  · cases parts
  · cases parts

theorem Below.parts (h : Below root (names ++ [n]) p) : ∃ above, p.parts = above ++ [.name n] := by
  obtain ⟨lead, parts, -⟩ := parts_eq_append_steps p
  refine ⟨lead ++ (root.steps ++ names.map .name), ?_⟩
  rw [parts, h.steps, List.map_append, List.append_assoc, List.append_assoc]
  rfl

theorem Below.fileName? (h : Below root (names ++ [n]) p) : p.fileName? = some n := by
  obtain ⟨above, parts⟩ := h.parts
  unfold Path.fileName?
  rw [parts, List.getLast?_concat]

theorem fileName?_join (plain : PathPart.Plain n) : (p.join n).fileName? = some n := by
  have below : Below p ([] ++ [n]) (p.join n) := (Below.refl p).join plain
  exact below.fileName?

theorem Below.parent (h : Below root (names ++ [n]) p) :
    ∃ q, p.parent? = some q ∧ Below root names q := by
  obtain ⟨above, parts⟩ := h.parts
  obtain ⟨q, parent, parts'⟩ := parts_parent parts
  refine ⟨q, parent, ?_, ?_⟩
  · have steps := h.steps
    rw [steps_eq, parts, List.filter_append, ← parts', ← steps_eq, List.map_append,
      ← List.append_assoc] at steps
    exact List.append_inj_left' steps rfl
  · rw [← h.absolute, Bool.eq_iff_iff, isAbsolute_iff, isAbsolute_iff, parts, parts']
    simp

/-! ### Normal forms -/

theorem reduce_append_congr {l l' : List PathPart} (h : l.foldl push [] = l'.foldl push [])
    (r : List PathPart) : reduce (l ++ r) = reduce (l' ++ r) := by
  unfold reduce
  rw [List.foldl_append, List.foldl_append, h]

theorem root_not_mem_steps (p : Path) : .root ∉ p.steps := by
  intro mem
  rw [steps_eq] at mem
  exact absurd (List.mem_filter.mp mem).2 (by decide)

theorem isAbsolute_iff_lead {p : Path} {lead : List PathPart} (parts : p.parts = lead ++ p.steps)
    (front : lead = [] ∨ lead = [.root] ∨ lead = [.here]) :
    p.isAbsolute = true ↔ lead = [.root] := by
  rw [isAbsolute_iff, parts, List.mem_append, or_iff_left (root_not_mem_steps p)]
  rcases front with rfl | rfl | rfl <;> simp

/-- A single point in front does not show in the normal form. -/
theorem reduce_parts (p : Path) :
    reduce p.parts = reduce ((if p.isAbsolute then [.root] else []) ++ p.steps) := by
  obtain ⟨lead, parts, front⟩ := parts_eq_append_steps p
  have absolute := isAbsolute_iff_lead parts front
  rw [parts]
  refine reduce_append_congr ?_ p.steps
  rcases front with rfl | rfl | rfl
  · rw [if_neg (absolute.not.mpr nofun)]
  · rw [if_pos (absolute.mpr rfl)]
  · rw [if_neg (absolute.not.mpr nofun)]
    rfl

theorem startsWith_iff_prefix {b : Path} : p.startsWith b = true ↔ b.parts <+: p.parts := by
  unfold startsWith
  rw [Option.isSome_iff_exists]
  simp only [partsAfter?_eq_some_iff]
  exact ⟨fun ⟨r, h⟩ => ⟨r, h.symm⟩, fun ⟨r, h⟩ => ⟨r, h.symm⟩⟩

theorem isAbsolute_iff_head : p.isAbsolute = true ↔ p.parts.head? = some .root := by
  obtain ⟨lead, parts, front⟩ := parts_eq_append_steps p
  rw [isAbsolute_iff_lead parts front, parts]
  rcases front with rfl | rfl | rfl
  · refine iff_of_false nofun fun first => root_not_mem_steps p (List.mem_of_mem_head? first)
  · simp
  · simp

/-- A path that begins with another one starts where that starts. -/
theorem isAbsolute_of_prefix (h : p.parts <+: q.parts) (started : p.parts ≠ []) :
    q.isAbsolute = p.isAbsolute := by
  obtain ⟨rest, whole⟩ := h
  rw [Bool.eq_iff_iff, isAbsolute_iff_head, isAbsolute_iff_head, ← whole,
    List.head?_append_of_ne_nil _ started]

theorem filter_names (names : List Text) :
    (names.map PathPart.name).filter PathPart.isStep = names.map .name :=
  List.filter_eq_self.mpr fun c hc => by
    obtain ⟨n, -, rfl⟩ := List.mem_map.mp hc
    rfl

theorem Below.normalize (h : Below root names p) : Below root.normalize names p.normalize where
  steps := by
    rw [steps_eq, parts_normalize, reduce_parts, h.steps, h.absolute, ← List.append_assoc,
      reduce_names, List.filter_append, ← reduce_parts, ← parts_normalize, ← steps_eq, filter_names]
  absolute := by
    rw [isAbsolute_normalize, isAbsolute_normalize, h.absolute]

/-- A reduced path with its last part first: no name stands before a step up. -/
def Sunk (stack : List PathPart) : Prop :=
  ∃ (names : List Text) (base : List PathPart), stack = names.map .name ++ base ∧
    ∀ c ∈ base, c.isStep = true → c = .up

theorem sunk_push {stack : List PathPart} (h : Sunk stack) {c : PathPart} (step : c.isStep = true) :
    Sunk (push stack c) := by
  obtain ⟨names, base, rfl, clear⟩ := h
  cases c with
  | root => cases step
  | here => cases step
  | name n => exact ⟨n :: names, base, rfl, clear⟩
  | up =>
    cases names with
    | cons n names => exact ⟨names, base, rfl, clear⟩
    | nil =>
      have kept : push base .up = .up :: base := by
        cases base with
        | nil => rfl
        | cons c base =>
          cases c with
          | name n => exact absurd (clear _ List.mem_cons_self rfl) nofun
          | _ => rfl
      refine ⟨[], .up :: base, kept, fun c hc step => ?_⟩
      rcases List.mem_cons.mp hc with rfl | below
      · rfl
      · exact clear c below step

theorem sunk_foldl {l stack : List PathPart} (h : Sunk stack) (steps : ∀ c ∈ l, c.isStep = true) :
    Sunk (l.foldl push stack) := by
  induction l generalizing stack with
  | nil => exact h
  | cons c l ih =>
    exact ih (sunk_push h (steps c List.mem_cons_self)) fun d hd =>
      steps d (List.mem_cons_of_mem c hd)

/-- A normal path climbs first, and leads on by names then. -/
theorem steps_normalize (p : Path) :
    ∃ (n : Nat) (names : List Text),
      p.normalize.steps = List.replicate n .up ++ names.map .name := by
  obtain ⟨lead, parts, front⟩ := parts_eq_append_steps p
  have begun : Sunk (lead.foldl push []) := by
    rcases front with rfl | rfl | rfl
    · exact ⟨[], [], rfl, nofun⟩
    · exact ⟨[], [.root], rfl, fun c hc step => by
        obtain rfl := List.mem_singleton.mp hc
        cases step⟩
    · exact ⟨[], [], rfl, nofun⟩
  obtain ⟨names, base, stack, clear⟩ := sunk_foldl begun (l := p.steps) fun c hc => by
    rw [steps_eq] at hc
    exact (List.mem_filter.mp hc).2
  have ups : base.reverse.filter PathPart.isStep =
      List.replicate (base.reverse.filter PathPart.isStep).length .up :=
    List.eq_replicate_iff.mpr ⟨rfl, fun c hc => by
      obtain ⟨mem, step⟩ := List.mem_filter.mp hc
      exact clear c (List.mem_reverse.mp mem) step⟩
  refine ⟨(base.reverse.filter PathPart.isStep).length, names.reverse, ?_⟩
  rw [steps_eq, parts_normalize, parts]
  unfold reduce
  rw [List.foldl_append, stack, List.reverse_append, List.filter_append, ← List.map_reverse,
    filter_names]
  exact congrArg (· ++ names.reverse.map .name) ups

/-! ### What stands between -/

theorem toSlash_ofParts_inner {l : List PathPart} (h : ∀ c ∈ l, c.Inner) :
    (ofParts l).toSlash = Text.joinWith [separator] (l.map PathPart.text) := by
  unfold toSlash
  have proper : Proper l := ⟨[], l, rfl, .inl rfl, h⟩
  rw [parts_ofParts proper]

theorem toSlash_ofParts (plain : ∀ n ∈ names, PathPart.Plain n) :
    (ofParts (names.map .name)).toSlash = Text.joinWith [separator] names := by
  rw [toSlash_ofParts_inner (inner_of_plain plain), map_text_names]

/-- What leads from one path to another one further below are the names between them. -/
theorem toSlash_after {base inside : Path} {x : Text} (h : p.after? base = some inside)
    (first : Below root [x] base) (more : Below root (x :: names) p)
    (plain : ∀ n ∈ names, PathPart.Plain n) :
    inside.toSlash = Text.joinWith [separator] names := by
  obtain ⟨rest, after, rfl⟩ := Option.map_eq_some_iff.mp h
  have parts := partsAfter?_eq_some_iff.mp after
  obtain ⟨lead, shape, front⟩ := parts_eq_append_steps p
  have steps : p.steps = base.steps ++ rest.filter PathPart.isStep := by
    rw [steps_eq, steps_eq, parts, List.filter_append]
  -- the parts before `rest` are not all in front of the steps
  have started : lead.length ≤ base.parts.length := by
    obtain ⟨above, last⟩ := @Below.parts root base [] x first
    rw [last]
    rcases front with rfl | rfl | rfl <;> simp
  have within : rest.filter PathPart.isStep = rest := by
    refine List.filter_eq_self.mpr fun c hc => ?_
    have cut : rest = p.steps.drop (base.parts.length - lead.length) := by
      have dropped := congrArg (List.drop base.parts.length) (parts.symm.trans shape)
      rw [List.drop_left, List.drop_append, List.drop_eq_nil_of_le started] at dropped
      exact dropped
    rw [cut] at hc
    have step := List.mem_of_mem_drop hc
    rw [steps_eq] at step
    exact (List.mem_filter.mp step).2
  rw [within, more.steps, first.steps, List.append_assoc, List.append_cancel_left_eq] at steps
  have names' : rest = names.map .name := (List.cons.inj steps).2.symm
  rw [names', toSlash_ofParts plain]

end Gateware.Path
