import Gateware.Proofs.Path.Below
import Mathlib.Data.List.Induction

/-!
# Normal paths and routes

A normal path is reduced no further (`reduce_reduce`), so what is put on a path may as well be put
on its normal form (`reduce_append_reduce`), and put there in its own
(`reduce_append_reduce_right`). Names and as many steps up lead nowhere (`reduce_climb`). A route is
written as its parts, but a root in it replaces all that stands before.
-/

namespace Gateware

open Text

namespace Path

/-! ### Normal forms -/

/-- A reduced path, put on a path part by part, leads as far as the path that was reduced. -/
theorem foldl_push_reduce (l stack : List PathPart) :
    (reduce l).foldl push stack = l.foldl push stack := by
  induction l using List.reverseRecOn with
  | nil => rfl
  | append_singleton l c ih =>
    rw [reduce_concat, List.foldl_append, List.foldl_cons, List.foldl_nil, ← ih]
    unfold reduce
    generalize l.foldl push [] = above
    -- a step up finds the name that it removes on top of the stack
    fun_cases push above c with
    | case1 => rfl
    | case2 n rest =>
      rw [List.reverse_cons, List.foldl_append]
      rfl
    | case3 =>
      rw [List.reverse_cons, List.foldl_append]
      rfl

theorem reduce_reduce (l : List PathPart) : reduce (reduce l) = reduce l :=
  congrArg List.reverse (foldl_push_reduce l [])

theorem reduce_subset (l : List PathPart) : reduce l ⊆ l := by
  have kept : ∀ c ∈ l.foldl push [], c ∈ l := by
    refine List.foldlRecOn (motive := fun stack => ∀ c ∈ stack, c ∈ l) l push nofun ?_
    intro stack held d hd
    fun_cases push stack d with
    | case1 => exact held
    | case2 n rest => exact fun c hc => held c (List.mem_cons_of_mem _ hc)
    | case3 =>
      intro c hc
      rcases List.mem_cons.mp hc with rfl | below
      · exact hd
      · exact held c below
  exact fun c hc => kept c (List.mem_reverse.mp hc)

theorem here_not_mem_reduce (l : List PathPart) : .here ∉ reduce l := by
  unfold reduce
  rw [List.mem_reverse]
  refine List.foldlRecOn (motive := fun stack => .here ∉ stack) l push List.not_mem_nil ?_
  intro stack h c hc
  fun_cases push stack c with
  | case1 => exact h
  | case2 n rest => exact fun found => h (List.mem_cons_of_mem _ found)
  | case3 =>
    rename_i other _
    rw [List.mem_cons, not_or]
    exact ⟨fun here => other here.symm, h⟩

/-- A normal path has the root in front of its steps, or nothing. -/
theorem parts_normalize_eq (p : Path) :
    p.normalize.parts = (if p.isAbsolute then [.root] else []) ++ p.normalize.steps := by
  obtain ⟨lead, parts, front⟩ := parts_eq_append_steps p.normalize
  have pointless : .here ∉ p.normalize.parts := by
    rw [parts_normalize]
    exact here_not_mem_reduce p.parts
  have absolute := isAbsolute_iff_lead parts front
  rw [isAbsolute_normalize] at absolute
  rw [parts]
  rcases front with rfl | rfl | rfl
  · rw [if_neg (absolute.not.mpr nofun)]
  · rw [if_pos (absolute.mpr rfl)]
  · exact absurd (parts ▸ List.mem_cons_self) pointless

theorem parts_normalize_relative {p : Path} (relative : p.isAbsolute = false) :
    p.normalize.parts = p.normalize.steps := by
  rw [parts_normalize_eq, relative]
  rfl

theorem steps_normalize_relative {p : Path} (relative : p.isAbsolute = false) :
    p.normalize.steps = reduce p.steps := by
  rw [← parts_normalize_relative relative, parts_normalize, reduce_parts, relative]
  rfl

theorem reduce_append_reduce (l m : List PathPart) : reduce (reduce l ++ m) = reduce (l ++ m) :=
  reduce_append_congr (List.reverse_injective (reduce_reduce l)) m

theorem reduce_append_reduce_right (l m : List PathPart) :
    reduce (l ++ reduce m) = reduce (l ++ m) := by
  unfold reduce
  rw [List.foldl_append, List.foldl_append]
  exact congrArg List.reverse (foldl_push_reduce m _)

theorem reduce_join_steps {p : Path} {x : Text} (h : x.head? ≠ some separator) :
    reduce (p.join x).parts =
      reduce ((if p.isAbsolute then [.root] else []) ++ p.steps ++ steps ⟨x⟩) := by
  rw [reduce_parts, isAbsolute_join h, steps_join h, List.append_assoc]

theorem reduce_join {p : Path} {x : Text} (h : x.head? ≠ some separator) :
    reduce (p.join x).parts = reduce (p.normalize.parts ++ steps ⟨x⟩) := by
  rw [reduce_join_steps h, parts_normalize, reduce_parts, reduce_append_reduce]

theorem normalize_normalize (p : Path) : p.normalize.normalize = p.normalize := by
  change ofParts (reduce p.normalize.parts) = ofParts (reduce p.parts)
  rw [parts_normalize, reduce_reduce]

theorem eq_of_parts {p q : Path} (hp : p.normalize = p) (hq : q.normalize = q)
    (h : p.parts = q.parts) : p = q := by
  rw [← hp, ← hq, normalize, normalize, h]

theorem normalize_join_plain {n : Text} (plain : PathPart.Plain n) (p : Path) :
    (p.join n).normalize = p.normalize.join n := by
  have parts : (p.join n).parts = p.parts ++ [n].map .name := parts_join plain p
  unfold normalize
  rw [parts, reduce_names]
  unfold ofParts joinParts
  rw [List.foldl_append]
  rfl

/-- Separators in front of a path are no steps. -/
theorem steps_dropWhile (t : Text) : steps ⟨t.dropWhile (· == '/')⟩ = steps ⟨t⟩ := by
  induction t with
  | nil => rfl
  | cons c t ih =>
    by_cases slash : c = '/'
    · subst slash
      have split : steps ⟨'/' :: t⟩ = steps ⟨t⟩ := rfl
      rw [split, ← ih]
      rfl
    · rw [List.dropWhile_cons_of_neg (by simpa using slash)]

theorem steps_subset_parts (p : Path) : p.steps ⊆ p.parts := by
  obtain ⟨lead, parts, -⟩ := parts_eq_append_steps p
  rw [parts]
  exact List.subset_append_right _ _

/-! ### Climbing back -/

theorem foldl_push_climb (names : List Text) (stack : List PathPart) :
    (names.map PathPart.name ++ List.replicate names.length PathPart.up).foldl push stack =
      stack := by
  induction names generalizing stack with
  | nil => rfl
  | cons n names ih =>
    have split : (n :: names).map PathPart.name ++
        List.replicate (n :: names).length PathPart.up =
          [.name n] ++ (names.map .name ++ List.replicate names.length .up) ++ [.up] := by
      simp [List.replicate_succ']
    rw [split, List.foldl_append, List.foldl_append, ih]
    rfl

theorem reduce_climb (above : List PathPart) (names : List Text) (l : List PathPart) :
    reduce (above ++ names.map .name ++ (List.replicate names.length .up ++ l)) =
      reduce (above ++ l) := by
  unfold reduce
  rw [List.append_assoc, ← List.append_assoc (names.map _), List.foldl_append, List.foldl_append,
    foldl_push_climb, ← List.foldl_append]

/-! ### Routes as text -/

variable {l : List PathPart}

theorem inner_climb (h : ∀ c ∈ l, c.Inner) (n : Nat) :
    ∀ c ∈ List.replicate n .up ++ l, c.Inner := by
  intro c hc
  rcases List.mem_append.mp hc with climb | rest
  · rw [List.eq_of_mem_replicate climb]
    exact ⟨rfl, by decide⟩
  · exact h c rest

theorem inner_route (h : ∀ c ∈ l, c.Inner) (m : List PathPart) : ∀ c ∈ route l m, c.Inner :=
  inner_climb (fun c hc => h c (List.mem_of_mem_drop hc)) _

/-- Parts that begin at the root replace all that stands before them. -/
theorem ofParts_append_root (above l : List PathPart) :
    ofParts (above ++ .root :: l) = ofParts (.root :: l) := by
  unfold ofParts joinParts
  rw [List.foldl_append]
  rfl

theorem parts_toSlash_root (h : ∀ c ∈ l, c.Inner) :
    parts ⟨(ofParts (.root :: l)).toSlash⟩ = .root :: l ∧
      (ofParts (.root :: l)).toSlash.head? = some separator := by
  have read : (ofParts (.root :: l)).parts = .root :: l :=
    parts_ofParts ⟨[.root], l, rfl, .inr (.inl rfl), h⟩
  unfold toSlash
  rw [read]
  cases l with
  | nil => exact ⟨rfl, rfl⟩
  | cons c l =>
    have text : joinWith [separator] ((.root :: c :: l).map PathPart.text) =
        separator :: separator :: joinWith [separator] ((c :: l).map PathPart.text) := rfl
    rw [text]
    refine ⟨?_, rfl⟩
    obtain ⟨first, rest, shape⟩ := List.exists_cons_of_ne_nil (pieces_ne_nil (· == separator)
      (joinWith [separator] ((c :: l).map PathPart.text)))
    have pieces : pieces (· == separator) (separator :: separator ::
        joinWith [separator] ((c :: l).map PathPart.text)) = [] :: [] :: first :: rest := by
      rw [← shape]
      rfl
    rw [parts_of_pieces (p := ⟨_⟩) (List.cons_ne_nil _ _) pieces]
    have steps := steps_joinWith_text h
    unfold Path.steps at steps
    rw [shape] at steps
    rw [List.filterMap_cons_none rfl, steps]
    rfl

end Path

end Gateware
