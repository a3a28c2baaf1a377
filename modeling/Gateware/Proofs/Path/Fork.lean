import Gateware.Proofs.Path.Route
import Mathlib.Data.List.Infix

/-!
# Where two paths fork

Two normal paths begin alike and then go on apart (`Fork`). The route from the second one to the
first climbs what the second has behind the fork and goes down what the first has there. It leads
back to the first path unless it would have to climb over a step up
(`normalize_join_relativeTo_iff`), and a route between relative paths leads on between the places
where they stand below any root (`Below.normalize_join_relativeTo`).
-/

namespace Gateware

open Text

namespace Path

/-- All that two lists of parts have in common in front, and how each of them goes on. -/
structure Fork (l m common onward back : List PathPart) : Prop where
  left : l = common ++ onward
  right : m = common ++ back
  apart : ∀ c, onward.head? = some c → back.head? ≠ some c

variable {l m common onward back : List PathPart} {p b : Path}

theorem exists_fork (l m : List PathPart) : ∃ common onward back, Fork l m common onward back := by
  induction l generalizing m with
  | nil => exact ⟨[], [], m, rfl, rfl, nofun⟩
  | cons a l ih =>
    cases m with
    | nil => exact ⟨[], a :: l, [], rfl, rfl, fun _ _ => nofun⟩
    | cons b m =>
      by_cases same : a = b
      · subst same
        obtain ⟨common, onward, back, left, right, apart⟩ := ih m
        exact ⟨a :: common, onward, back, congrArg _ left, congrArg _ right, apart⟩
      · exact ⟨[], a :: l, b :: m, rfl, rfl, fun c ha hb =>
          same ((Option.some.inj ha).trans (Option.some.inj hb).symm)⟩

theorem Fork.commonLength (fork : Fork l m common onward back) :
    commonLength l m = common.length := by
  obtain ⟨rfl, rfl, apart⟩ := fork
  induction common with
  | nil =>
    cases onward with
    | nil => rfl
    | cons a onward =>
      cases back with
      | nil => rfl
      | cons b back => exact if_neg fun same => apart a rfl (congrArg some same.symm)
  | cons c common ih => simp [Path.commonLength, ih]

theorem Fork.route (fork : Fork l m common onward back) :
    route l m = List.replicate back.length .up ++ onward := by
  have length := fork.commonLength
  unfold Path.route
  rw [length, fork.left, fork.right]
  simp

theorem Fork.prefix_common (fork : Fork l m common onward back) {f : List PathPart} (hl : f <+: l)
    (hm : f <+: m) : f <+: common := by
  obtain ⟨rfl, rfl, apart⟩ := fork
  rcases List.prefix_or_prefix_of_prefix hl (List.prefix_append common onward) with within | beyond
  · exact within
  · -- the two would go on alike behind the fork
    obtain ⟨rest, rfl⟩ := beyond
    rw [List.prefix_append_right_inj] at hl hm
    cases rest with
    | nil => simp
    | cons c rest =>
      obtain ⟨s, rfl⟩ := hl
      obtain ⟨s', rfl⟩ := hm
      exact absurd rfl (apart c rfl)

/-! ### What no step up removes -/

/-- Parts of which a step up removes none. -/
def Floor (l : List PathPart) : Prop := ∀ c ∈ l, c = .root ∨ c = .up

theorem not_floor_of_name {n : Text} {rest : List PathPart} : ¬ Floor (.name n :: rest) := by
  intro floor
  rcases floor _ List.mem_cons_self with root | up
  · cases root
  · cases up

theorem floor_append_ups (h : Floor l) (n : Nat) : Floor (l ++ List.replicate n .up) := by
  intro c hc
  rcases List.mem_append.mp hc with below | climb
  · exact h c below
  · exact .inr (List.eq_of_mem_replicate climb)

theorem push_floor {stack : List PathPart} (h : Floor stack) {c : PathPart}
    (hc : c = .root ∨ c = .up) : push stack c = c :: stack := by
  rcases hc with rfl | rfl
  · rfl
  · cases stack with
    | nil => rfl
    | cons a stack =>
      rcases h a List.mem_cons_self with rfl | rfl <;> rfl

theorem reduce_floor (h : Floor l) : reduce l = l := by
  have stacked (l stack : List PathPart) (hl : Floor l) (hs : Floor stack) :
      l.foldl push stack = l.reverse ++ stack := by
    induction l generalizing stack with
    | nil => rfl
    | cons c l ih =>
      obtain ⟨first, rest⟩ := List.forall_mem_cons.mp hl
      rw [List.foldl_cons, push_floor hs first, ih _ rest (List.forall_mem_cons.mpr ⟨first, hs⟩),
        List.reverse_cons, List.append_assoc]
      rfl
  unfold reduce
  rw [stacked l [] h nofun, List.append_nil, List.reverse_reverse]

theorem prefix_reduce {floor : List PathPart} (hf : Floor floor) (h : floor <+: reduce l)
    (s : List PathPart) : floor <+: reduce (l ++ s) := by
  have kept (stack : List PathPart) (c : PathPart) (h : floor.reverse <:+ stack) :
      floor.reverse <:+ push stack c := by
    fun_cases push stack c with
    | case1 => exact h
    | case2 n rest =>
      rcases List.suffix_cons_iff.mp h with whole | below
      · exact absurd (fun c hc => hf c (List.mem_reverse.mp (whole ▸ hc))) not_floor_of_name
      · exact below
    | case3 => exact h.trans (List.suffix_cons ..)
  unfold reduce at h ⊢
  rw [List.foldl_append]
  have start : floor.reverse <:+ l.foldl push [] := by
    rw [← List.reverse_prefix, List.reverse_reverse]
    exact h
  rw [← List.reverse_suffix, List.reverse_reverse]
  exact List.foldlRecOn (motive := fun stack => floor.reverse <:+ stack) s push start
    fun stack h c _ => kept stack c h

theorem Floor.prefix_join {floor : List PathPart} (hf : Floor floor) {x : Text}
    (head : x.head? ≠ some separator) (h : floor <+: p.normalize.parts) :
    floor <+: (p.join x).normalize.parts := by
  rw [parts_normalize, reduce_join head]
  refine prefix_reduce hf ?_ _
  rwa [parts_normalize, reduce_reduce, ← parts_normalize]

theorem Floor.prefix_above {floor s r : List PathPart} {n : Text} (hf : Floor floor)
    (h : floor ++ s = l ++ .name n :: r) : floor <+: l := by
  rcases List.append_eq_append_iff.mp h with ⟨more, rfl, -⟩ | ⟨beyond, rfl, names⟩
  · exact List.prefix_append _ _
  · cases beyond with
    | nil => simp
    | cons c beyond =>
      obtain ⟨rfl, -⟩ := List.cons.inj names
      exact absurd (fun c hc => hf c (List.mem_append_right _ hc)) not_floor_of_name

theorem exists_floor (p : Path) :
    ∃ (floor : List PathPart) (names : List Text), Floor floor ∧
      p.normalize.parts = floor ++ names.map .name := by
  obtain ⟨n, names, steps⟩ := steps_normalize p
  refine ⟨(if p.isAbsolute then [.root] else []) ++ List.replicate n .up, names,
    floor_append_ups (fun c hc => ?_) n, ?_⟩
  · split at hc
    · exact .inl (List.mem_singleton.mp hc)
    · cases hc
  · rw [parts_normalize_eq, steps, List.append_assoc]

theorem reduce_overclimb {floor : List PathPart} (h : Floor floor) (n : Nat) (names : List Text) :
    reduce (floor ++ (List.replicate n .up ++ names.map .name)) =
      floor ++ (List.replicate n .up ++ names.map .name) := by
  rw [← List.append_assoc, reduce_names, reduce_floor (floor_append_ups h n)]

/-- Two paths that stand on the floor of one of them fork among its names. -/
theorem Fork.level (fork : Fork p.parts b.parts common onward back) {floor : List PathPart}
    {names : List Text} (base : b.parts = floor ++ names.map .name) (shared : floor <+: p.parts) :
    .up ∉ back := by
  obtain ⟨above, rfl⟩ := fork.prefix_common shared ⟨_, base.symm⟩
  have behind := fork.right
  rw [base, List.append_assoc, List.append_cancel_left_eq] at behind
  intro up
  have among : .up ∈ names.map PathPart.name := behind ▸ List.mem_append_right _ up
  simp at among

/-! ### Leading back -/

theorem Fork.symm (fork : Fork l m common onward back) : Fork m l common back onward :=
  ⟨fork.right, fork.left, fun c hb ha => fork.apart c ha hb⟩

/-- Behind the fork of two paths, of which none or both are absolute, stand steps only. -/
theorem Fork.inner (fork : Fork p.normalize.parts b.normalize.parts common onward back)
    (same : p.isAbsolute = b.isAbsolute) : ∀ c ∈ onward, c.Inner := by
  have left := parts_normalize_eq p
  have right := parts_normalize_eq b
  rw [← same] at right
  obtain ⟨shared, rfl⟩ := fork.prefix_common ⟨_, left.symm⟩ ⟨_, right.symm⟩
  rw [fork.left, List.append_assoc, List.append_cancel_left_eq] at left
  intro c hc
  exact inner_of_mem_steps (left ▸ List.mem_append_right _ hc)

/-- What follows a part of a normal path are names, unless that part is within its floor. -/
theorem names_or_climb {rest : List PathPart} (h : p.normalize.parts = common ++ rest)
    (inner : ∀ c ∈ rest, c.Inner) :
    (∃ names : List Text, rest = names.map .name) ∨
      Floor common ∧ ∃ (n : Nat) (names : List Text),
        rest = List.replicate (n + 1) .up ++ names.map .name := by
  obtain ⟨floor, names, hf, parts⟩ := exists_floor p
  rw [h, List.append_eq_append_iff] at parts
  -- either some of the floor is left behind the part, or all of it stands before
  rcases parts with ⟨climb, whole, rfl⟩ | ⟨beyond, -, names'⟩
  · have up {c : PathPart} (hc : c ∈ climb) : c = .up := by
      refine (hf c (whole ▸ List.mem_append_right _ hc)).resolve_left ?_
      rintro rfl
      cases (inner _ (List.mem_append_left _ hc)).reads
    cases climb with
    | nil => exact .inl ⟨names, rfl⟩
    | cons c climb =>
      obtain rfl := up List.mem_cons_self
      refine .inr ⟨fun c hc => hf c (whole ▸ List.mem_append_left _ hc), climb.length, names, ?_⟩
      have all : climb = List.replicate climb.length .up :=
        List.eq_replicate_iff.mpr ⟨rfl, fun c hc => up (List.mem_cons_of_mem _ hc)⟩
      rw [List.replicate_succ, ← all]
  · obtain ⟨_, after, -, -, rfl⟩ := List.map_eq_append_iff.mp names'
    exact .inl ⟨after, rfl⟩

theorem parts_normalize_join_relativeTo (same : p.isAbsolute = b.isAbsolute)
    (fork : Fork p.normalize.parts b.normalize.parts common onward back) :
    (b.join (p.relativeTo b).toSlash).normalize.parts =
      reduce (common ++ back ++ (List.replicate back.length .up ++ onward)) := by
  have inner := inner_climb (fork.inner same) back.length
  unfold relativeTo
  rw [fork.route, parts_normalize, toSlash_ofParts_inner inner,
    reduce_join (head?_joinWith_text inner), steps_joinWith_text inner, fork.right]

theorem Fork.leads (fork : Fork p.normalize.parts b.normalize.parts common onward back)
    (same : p.isAbsolute = b.isAbsolute) (level : .up ∉ back) :
    (b.join (p.relativeTo b).toSlash).normalize = p.normalize := by
  have parts := parts_normalize_join_relativeTo same fork
  rcases names_or_climb fork.right (fork.symm.inner same.symm) with
    ⟨names, rfl⟩ | ⟨-, n, names, rfl⟩
  · rw [List.length_map, reduce_climb, ← fork.left, parts_normalize, parts_normalize,
      reduce_reduce] at parts
    exact congrArg ofParts parts
  · exact absurd List.mem_cons_self level

/-- Steps up that a route has to climb over stay, and it ends as far again above the fork. -/
theorem Fork.overclimbs (fork : Fork p.normalize.parts b.normalize.parts common onward back)
    (same : p.isAbsolute = b.isAbsolute) (climbs : .up ∈ back) :
    ∃ (n : Nat) (names names' : List Text), Floor common ∧
      back = List.replicate (n + 1) .up ++ names.map .name ∧ onward = names'.map .name ∧
      (b.join (p.relativeTo b).toSlash).normalize.parts = common ++ List.replicate (n + 1) .up ++
        (List.replicate (n + 1) .up ++ names'.map .name) := by
  have parts := parts_normalize_join_relativeTo same fork
  rcases names_or_climb fork.right (fork.symm.inner same.symm) with
    ⟨names, rfl⟩ | ⟨floor, n, names, rfl⟩
  · simp at climbs
  rcases names_or_climb fork.left (fork.inner same) with ⟨names', rfl⟩ | ⟨-, _, _, rfl⟩
  · refine ⟨n, names, names', floor, rfl, rfl, parts.trans ?_⟩
    -- the first steps up undo the names, and the others meet the floor
    have climb : List.replicate
        (List.replicate (n + 1) PathPart.up ++ names.map PathPart.name).length PathPart.up =
          List.replicate names.length .up ++ List.replicate (n + 1) .up := by
      rw [List.replicate_append_replicate, List.length_append, List.length_replicate,
        List.length_map, Nat.add_comm]
    rw [climb, List.append_assoc (List.replicate names.length _), ← List.append_assoc common,
      reduce_climb, reduce_overclimb (floor_append_ups floor _)]
  · exact absurd rfl (fork.apart _ rfl)

/-- The route leads back unless it has to climb over a step up. -/
theorem normalize_join_relativeTo_iff (same : p.isAbsolute = b.isAbsolute)
    (fork : Fork p.normalize.parts b.normalize.parts common onward back) :
    (b.join (p.relativeTo b).toSlash).normalize = p.normalize ↔ .up ∉ back := by
  refine ⟨fun leads climbs => ?_, fork.leads same⟩
  obtain ⟨n, names, names', -, -, rfl, parts⟩ := fork.overclimbs same climbs
  rw [leads, fork.left] at parts
  have lengths := congrArg List.length parts
  simp only [List.length_append, List.length_replicate, List.length_map] at lengths
  omega

/-- A route that begins at the root leads back from any relative path. -/
theorem normalize_join_relativeTo_root (absolute : p.isAbsolute = true)
    (relative : b.isAbsolute = false) :
    (b.join (p.relativeTo b).toSlash).normalize = p.normalize := by
  have parts : p.normalize.parts = .root :: p.normalize.steps := by
    rw [parts_normalize_eq, absolute]
    rfl
  have base : b.normalize.parts = b.normalize.steps := by
    rw [parts_normalize_eq, relative]
    rfl
  obtain ⟨common, onward, back, fork⟩ := exists_fork p.normalize.parts b.normalize.parts
  have apart : common = [] := by
    cases common with
    | nil => rfl
    | cons c common =>
      obtain ⟨rfl, -⟩ := List.cons.inj (parts.symm.trans fork.left)
      have held : .root ∈ b.normalize.parts := fork.right ▸ List.mem_cons_self
      exact absurd (base ▸ held) (root_not_mem_steps b.normalize)
  have onward' : onward = .root :: p.normalize.steps := by
    rw [← parts, fork.left, apart]
    rfl
  -- the root replaces the steps up
  have written : p.relativeTo b = ofParts (.root :: p.normalize.steps) := by
    unfold relativeTo
    rw [fork.route, onward', ofParts_append_root]
  obtain ⟨read, head⟩ := @parts_toSlash_root p.normalize.steps fun c => inner_of_mem_steps
  refine congrArg ofParts ?_
  rw [written, join, if_pos head, read, ← parts, parts_normalize, reduce_reduce]

/-! ### Routes from names -/

theorem reduce_route (above l : List PathPart) (names : List Text) :
    reduce (above ++ names.map .name ++ route l (names.map .name)) = reduce (above ++ l) := by
  obtain ⟨common, onward, back, fork⟩ := exists_fork l (names.map .name)
  obtain ⟨_, after, -, -, rfl⟩ := List.map_eq_append_iff.mp fork.right
  rw [fork.route, fork.right, List.length_map, ← List.append_assoc above, reduce_climb,
    List.append_assoc, ← fork.left]

/-- The route from a directory leads there. -/
theorem normalize_join_relativeTo {names : List Text} (down : b.steps = names.map .name)
    (relative : b.isAbsolute = false) (p : Path) :
    (b.join (p.relativeTo b).toSlash).normalize = p.normalize := by
  cases absolute : p.isAbsolute with
  | true => exact normalize_join_relativeTo_root absolute relative
  | false =>
    obtain ⟨common, onward, back, fork⟩ := exists_fork p.normalize.parts b.normalize.parts
    have below : b.normalize.parts = names.map .name := by
      rw [parts_normalize, reduce_parts, relative, down]
      exact reduce_names [] names
    have level : .up ∉ common ++ back := by
      rw [← fork.right, below]
      simp
    exact fork.leads (absolute.trans relative.symm) fun up => level (List.mem_append_right _ up)

/-- Two paths have one route exactly when they have one normal form. -/
theorem toSlash_relativeTo_inj {names : List Text} (down : b.steps = names.map .name)
    (relative : b.isAbsolute = false) {p q : Path} :
    (p.relativeTo b).toSlash = (q.relativeTo b).toSlash ↔ p.normalize = q.normalize := by
  constructor
  · intro same
    rw [← normalize_join_relativeTo down relative p, same,
      normalize_join_relativeTo down relative q]
  · intro same
    unfold relativeTo
    rw [same]

/-! ### Routes below other roots -/

variable {dir root : Path} {names : List Text}

theorem inner_route_steps (p : Path) (names : List Text) :
    ∀ c ∈ route p.normalize.steps (names.map .name), c.Inner :=
  inner_route (fun _ => inner_of_mem_steps) _

theorem toSlash_relativeTo_names (relative : p.isAbsolute = false)
    (base : b.normalize.parts = names.map .name) :
    (p.relativeTo b).toSlash =
      joinWith [separator] ((route p.normalize.steps (names.map .name)).map PathPart.text) := by
  unfold relativeTo
  rw [base, parts_normalize_relative relative, toSlash_ofParts_inner (inner_route_steps p names)]

/-- The route between two paths leads on between the places where they stand below any root. -/
theorem Below.normalize_join_relativeTo (below : Below root names dir)
    (base : b.normalize.parts = names.map .name) (relative : p.isAbsolute = false) :
    (dir.join (p.relativeTo b).toSlash).normalize = (root.join p.text).normalize := by
  have inner := inner_route_steps p names
  have head : p.text.head? ≠ some separator := beq_eq_false_iff_ne.mp relative
  have reread : Path.steps ⟨p.text⟩ = p.steps := rfl
  have climbed : reduce (dir.join (p.relativeTo b).toSlash).parts =
      reduce ((if root.isAbsolute then [.root] else []) ++ root.steps ++ p.normalize.steps) := by
    rw [toSlash_relativeTo_names relative base, reduce_join_steps (head?_joinWith_text inner),
      steps_joinWith_text inner, below.absolute, below.steps, ← List.append_assoc, reduce_route]
  refine congrArg ofParts ?_
  rw [climbed, steps_normalize_relative relative, reduce_append_reduce_right,
    reduce_join_steps head, reread]

theorem head?_toSlash_relativeTo {a : Char} (relative : p.isAbsolute = false)
    (base : b.normalize.parts = names.map .name) (up : a ≠ '.')
    (free : ∀ c ∈ p.steps, c.text.head? ≠ some a) :
    (p.relativeTo b).toSlash.head? ≠ some a := by
  rw [toSlash_relativeTo_names relative base]
  have inner := inner_route_steps p names
  cases shape : route p.normalize.steps (names.map .name) with
  | nil => nofun
  | cons c l =>
    have first : c ∈ route p.normalize.steps (names.map .name) := shape ▸ List.mem_cons_self
    rw [head?_joinWith_cons (inner c first).text_ne_nil]
    rcases List.mem_append.mp first with climb | onward
    · rw [List.eq_of_mem_replicate climb]
      exact fun dot => up (Option.some.inj dot).symm
    · have held : c ∈ reduce p.steps :=
        steps_normalize_relative relative ▸ List.mem_of_mem_drop onward
      exact free c (reduce_subset p.steps held)

end Path

end Gateware
