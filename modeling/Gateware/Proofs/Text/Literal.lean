import Gateware.Proofs.Text.Matches

/-!
# Literals in a text

A text is cut at the first place of a character (`cut?_append`) or of a longer literal
(`cut?_append_first`), or at the last place of a character (`cutLast?_append`), and holds a literal
when it can be cut at it (`includes_iff`). Replacing a literal and finding it are recursions along
its places: `replace_append`, `replace_cons`, `findAll_append` and `findAll_cons` are their
equations, and `literalInduction` is the induction that follows them.
-/

namespace Gateware.Text

@[simp] theorem stripStart?_append (p r : Text) : stripStart? p (p ++ r) = some r :=
  stripStart?_eq_some_iff.mpr rfl

theorem stripStart?_eq_none_iff {p s : Text} : stripStart? p s = none ↔ ¬ p <+: s := by
  rw [Option.eq_none_iff_forall_ne_some]
  constructor
  · rintro miss ⟨r, rfl⟩
    exact miss r (stripStart?_append p r)
  · intro miss r found
    exact miss ⟨r, (stripStart?_eq_some_iff.mp found).symm⟩

/-- The first character of a literal, without its other characters being looked at. -/
theorem head?_toList {s : String} {c : Char} {l : Text} (h : s = String.ofList (c :: l)) :
    s.toList.head? = some c := by
  rw [h, String.toList_ofList]
  rfl

/-! ### Places of a literal around a character that it lacks -/

theorem prefix_append_cons_iff {p a t : Text} {z : Char} (absent : z ∉ p) :
    p <+: a ++ z :: t ↔ p <+: a := by
  refine ⟨fun h => ?_, fun h => h.trans (List.prefix_append a _)⟩
  induction a generalizing p with
  | nil =>
    cases p with
    | nil => exact List.nil_prefix
    | cons c p =>
      obtain ⟨rfl, -⟩ := List.cons_prefix_cons.mp h
      exact absurd List.mem_cons_self absent
  | cons c a ih =>
    cases p with
    | nil => exact List.nil_prefix
    | cons d p =>
      obtain ⟨rfl, rest⟩ := List.cons_prefix_cons.mp h
      exact List.cons_prefix_cons.mpr ⟨rfl, ih (fun hd => absent (List.mem_cons_of_mem _ hd)) rest⟩

/-- A literal stands on one side of every character that it lacks. -/
theorem infix_append_cons_iff {p s r : Text} {z : Char} (nonempty : p ≠ []) (absent : z ∉ p) :
    p <:+: s ++ z :: r ↔ p <:+: s ∨ p <:+: r := by
  induction s with
  | nil =>
    have none : ¬ p <+: z :: r := fun here =>
      nonempty (List.prefix_nil.mp ((prefix_append_cons_iff (a := []) absent).mp here))
    rw [List.nil_append, List.infix_cons_iff, List.infix_nil]
    simp [none, nonempty]
  | cons c s ih =>
    have here : p <+: c :: (s ++ z :: r) ↔ p <+: c :: s :=
      prefix_append_cons_iff (a := c :: s) absent
    rw [List.cons_append, List.infix_cons_iff, here, ih, List.infix_cons_iff, or_assoc]

/-! ### Cutting at a character -/

theorem cut?_append {c : Char} {b : Text} (h : c ∉ b) (r : Text) :
    cut? [c] (b ++ c :: r) = some (b, r) := by
  induction b with
  | nil => simp [cut?, stripStart?]
  | cons a b ih =>
    obtain ⟨ne, rest⟩ := List.ne_and_not_mem_of_not_mem_cons h
    have miss : stripStart? [c] (a :: (b ++ c :: r)) = none := by simp [stripStart?, ne]
    rw [List.cons_append, cut?, miss]
    simp [ih rest]

theorem cut?_eq_none {c : Char} {s : Text} (h : c ∉ s) : cut? [c] s = none := by
  induction s with
  | nil => rfl
  | cons a s ih =>
    obtain ⟨ne, rest⟩ := List.ne_and_not_mem_of_not_mem_cons h
    simp [cut?, stripStart?, ne, ih rest]

theorem cutLast?_append {c : Char} {r : Text} (h : c ∉ r) (b : Text) :
    cutLast? c (b ++ c :: r) = some (b, r) := by
  have turned : (b ++ c :: r).reverse = r.reverse ++ c :: b.reverse := by simp
  unfold cutLast?
  rw [turned, cut?_append (by simpa using h)]
  simp

/-- A literal whose last character stands nowhere else in it cannot begin before its first place and
end inside it. -/
theorem cut?_append_first {q : Text} {z : Char} (unique : z ∉ q) {b : Text}
    (absent : ¬ q ++ [z] <:+: b) (r : Text) :
    cut? (q ++ [z]) (b ++ (q ++ [z] ++ r)) = some (b, r) := by
  induction b with
  | nil =>
    obtain ⟨c, l, shape⟩ := List.exists_cons_of_ne_nil (List.concat_ne_nil z q)
    have here : stripStart? (q ++ [z]) (c :: (l ++ r)) = some r := by
      rw [← List.cons_append, ← shape, stripStart?_append]
    rw [List.nil_append, shape, List.cons_append, cut?, ← shape, here]
  | cons a b ih =>
    have later : ¬ q ++ [z] <:+: b := fun h =>
      absent (h.trans (List.infix_cons (List.infix_refl b)))
    have miss : stripStart? (q ++ [z]) (a :: (b ++ (q ++ [z] ++ r))) = none := by
      rw [stripStart?_eq_none_iff, ← List.cons_append]
      rintro ⟨t, early⟩
      replace early := early.symm
      rcases List.append_eq_append_iff.mp early with ⟨u, whole, rest⟩ | ⟨u, whole, -⟩
      · rcases List.eq_nil_or_concat u with rfl | ⟨v, y, rfl⟩
        · exact absent ⟨[], [], by simpa using whole⟩
        -- the last character of the early place is one of `q` at the later one
        · rw [List.concat_eq_append, ← List.append_assoc] at whole
          obtain ⟨longer, same⟩ := List.append_inj' whole rfl
          obtain rfl := List.singleton_inj.mp same
          have length := congrArg List.length longer
          simp only [List.length_append, List.length_cons] at length
          have lined : v ++ z :: t = q ++ z :: r := by simpa using rest.symm
          rcases List.append_eq_append_iff.mp lined with ⟨w, shape, tail⟩ | ⟨w, shape, -⟩
          · cases w with
            | nil => simp only [shape, List.append_nil] at length; omega
            | cons c w =>
              obtain ⟨rfl, -⟩ := List.cons_eq_cons.mp tail
              exact unique (shape ▸ by simp)
          · have := congrArg List.length shape
            simp only [List.length_append] at this
            omega
      · exact absent ⟨[], u, by rw [List.nil_append, whole]⟩
    rw [List.cons_append, cut?, miss]
    simp only [ih later, Option.map_some]

theorem cut?_isSome_of_infix {p s : Text} (h : p <:+: s) : (cut? p s).isSome := by
  induction s with
  | nil =>
    obtain rfl := List.infix_nil.mp h
    rfl
  | cons c s ih =>
    cases first : stripStart? p (c :: s) with
    | some r => simp [cut?, first]
    | none =>
      have later : p <:+: s := by
        rcases List.infix_cons_iff.mp h with ⟨r, here⟩ | later
        · rw [← here, stripStart?_append] at first
          cases first
        · exact later
      simpa [cut?, first] using ih later

/-- A text is cut at the first place of the literal. -/
theorem cut?_eq_some_iff {p s b r : Text} :
    cut? p s = some (b, r) ↔
      s = b ++ p ++ r ∧ ∀ b' r', s = b' ++ p ++ r' → b.length ≤ b'.length := by
  have least {b r : Text} (found : cut? p s = some (b, r)) {b' r' : Text}
      (place : s = b' ++ p ++ r') : b.length ≤ b'.length := by
    fun_induction cut? p s generalizing b b' with
    | case1 =>
      obtain ⟨rfl, -⟩ := Prod.mk.inj (Option.some.inj found)
      exact Nat.zero_le _
    | case2 => cases found
    | case3 c s t front =>
      obtain ⟨rfl, -⟩ := Prod.mk.inj (Option.some.inj found)
      exact Nat.zero_le _
    | case4 c s miss ih =>
      obtain ⟨⟨b, r⟩, later, same⟩ := Option.map_eq_some_iff.mp found
      obtain ⟨rfl, rfl⟩ := Prod.mk.inj same
      cases b' with
      | nil => exact absurd ⟨r', place.symm⟩ (stripStart?_eq_none_iff.mp miss)
      | cons d b' => exact Nat.succ_le_succ (ih later (List.cons.inj place).2)
  constructor
  · exact fun found => ⟨cut?_eq_some found, fun _ _ => least found⟩
  · rintro ⟨shape, shortest⟩
    have inside : p <:+: s := ⟨b, r, shape.symm⟩
    have cuts : (cut? p s).isSome := cut?_isSome_of_infix inside
    obtain ⟨⟨b', r'⟩, found⟩ := Option.isSome_iff_exists.mp cuts
    have shape' := cut?_eq_some found
    have length := Nat.le_antisymm (shortest b' r' shape') (least found shape)
    rw [found]
    rw [shape, List.append_assoc, List.append_assoc] at shape'
    obtain ⟨rfl, rest⟩ := List.append_inj shape' length
    rw [List.append_cancel_left rest]

/-- A literal is included exactly when it stands somewhere in the text. -/
theorem includes_iff {p s : Text} : includes p s = true ↔ p <:+: s := by
  constructor
  · intro h
    obtain ⟨⟨b, r⟩, found⟩ := Option.isSome_iff_exists.mp h
    exact ⟨b, r, (cut?_eq_some found).symm⟩
  · exact cut?_isSome_of_infix

/-- A literal that the search misses stands nowhere in the text. -/
theorem not_infix_of_includes {p s : Text} (h : includes p s = false) : ¬ p <:+: s := by
  rw [← includes_iff, h]
  exact Bool.false_ne_true

/-! ### Replacing a literal -/

theorem consumes_stripStart? {α : Type} {old : Text} (nonempty : old ≠ []) (a : α) :
    Consumes fun s => (stripStart? old s).map fun r => (a, r) := by
  intro s b r h
  obtain ⟨rest, found, same⟩ := Option.map_eq_some_iff.mp h
  cases same
  exact ⟨old, nonempty, stripStart?_eq_some_iff.mp found⟩

theorem scan_append {α : Type} {old : Text} (nonempty : old ≠ []) (a : α) (s : Text) :
    scan (fun _ t => (stripStart? old t).map fun r => (a, r)) none 0 (old ++ s) =
      .inr a :: scan (fun _ t => (stripStart? old t).map fun r => (a, r)) none 0 s :=
  scan_match (consumes_stripStart? nonempty a) (by simp only [stripStart?_append, Option.map_some])

theorem scan_cons {α : Type} {old : Text} {c : Char} {s : Text}
    (miss : stripStart? old (c :: s) = none) (a : α) :
    scan (fun _ t => (stripStart? old t).map fun r => (a, r)) none 0 (c :: s) =
      .inl c :: scan (fun _ t => (stripStart? old t).map fun r => (a, r)) none 0 s :=
  scan_skip (m := fun s => (stripStart? old s).map fun r => (a, r))
    (by simp only [miss, Option.map_none])

@[simp] theorem replace_nil (old new : Text) : replace old new [] = [] := rfl

theorem replace_append {old : Text} (nonempty : old ≠ []) (new s : Text) :
    replace old new (old ++ s) = new ++ replace old new s := by
  unfold replace substitute
  rw [scan_append nonempty]
  rfl

theorem replace_cons {old : Text} {c : Char} {s : Text} (miss : stripStart? old (c :: s) = none)
    (new : Text) : replace old new (c :: s) = c :: replace old new s := by
  unfold replace substitute
  rw [scan_cons miss]
  rfl

/-- Each place of a literal is found, also after it. -/
theorem findAll_append {α : Type} {old : Text} (nonempty : old ≠ []) (a : α) (s : Text) :
    findAll (fun _ t => (stripStart? old t).map fun r => (a, r)) (old ++ s) =
      a :: findAll (fun _ t => (stripStart? old t).map fun r => (a, r)) s := by
  unfold findAll
  rw [scan_append nonempty]
  rfl

theorem findAll_cons {α : Type} {old : Text} {c : Char} {s : Text}
    (miss : stripStart? old (c :: s) = none) (a : α) :
    findAll (fun _ t => (stripStart? old t).map fun r => (a, r)) (c :: s) =
      findAll (fun _ t => (stripStart? old t).map fun r => (a, r)) s := by
  unfold findAll
  rw [scan_cons miss]
  rfl

/-- Induction along the places of a literal, from the left. -/
theorem literalInduction {old : Text} (nonempty : old ≠ []) {motive : Text → Prop}
    (nil : motive []) (found : ∀ s, motive s → motive (old ++ s))
    (kept : ∀ c s, stripStart? old (c :: s) = none → motive s → motive (c :: s)) (s : Text) :
    motive s := by
  induction h : s.length using Nat.strongRecOn generalizing s with
  | _ n ih =>
    cases s with
    | nil => exact nil
    | cons c s =>
      cases e : stripStart? old (c :: s) with
      | none => exact kept c s e (ih s.length (by simp at h; omega) s rfl)
      | some r =>
        rw [stripStart?_eq_some_iff] at e
        have shorter : r.length < n := by
          have := List.length_pos_iff.mpr nonempty
          rw [e, List.length_append] at h
          omega
        rw [e]
        exact found r (ih r.length shorter r rfl)

theorem replace_eq_self_of_not_infix {old s : Text} (absent : ¬ old <:+: s) (new : Text) :
    replace old new s = s := by
  induction s with
  | nil => rfl
  | cons c s ih =>
    have miss : stripStart? old (c :: s) = none :=
      stripStart?_eq_none_iff.mpr fun here => absent here.isInfix
    rw [replace_cons miss, ih fun inner => absent (inner.trans (List.suffix_cons c s).isInfix)]

/-- Without one of its characters a literal stands nowhere. -/
theorem replace_eq_self {old s : Text} {c : Char} (hold : c ∈ old) (hs : c ∉ s) (new : Text) :
    replace old new s = s :=
  replace_eq_self_of_not_infix (fun inner => hs (inner.subset hold)) new

theorem replace_append_of_not_mem {old : Text} {c : Char} {rest : Text} (h : old = c :: rest)
    {s : Text} (free : c ∉ s) (new t : Text) :
    replace old new (s ++ t) = s ++ replace old new t := by
  induction s with
  | nil => rfl
  | cons a s ih =>
    obtain ⟨ne, later⟩ := List.ne_and_not_mem_of_not_mem_cons free
    have miss : stripStart? old (a :: (s ++ t)) = none := by
      rw [h]
      exact if_neg ne
    rw [List.cons_append, replace_cons miss, ih later, List.cons_append]

/-- A character after the replacement is one of the text or of the new literal. -/
theorem mem_replace {old : Text} (nonempty : old ≠ []) {new s : Text} {c : Char}
    (h : c ∈ replace old new s) : c ∈ s ∨ c ∈ new := by
  induction s using literalInduction nonempty with
  | nil => exact .inl h
  | found s ih =>
    rw [replace_append nonempty, List.mem_append] at h
    rcases h with fresh | later
    · exact .inr fresh
    · exact (ih later).imp_left (List.mem_append_right old)
  | kept a s miss ih =>
    rw [replace_cons miss, List.mem_cons] at h
    rcases h with rfl | later
    · exact .inl List.mem_cons_self
    · exact (ih later).imp_left (List.mem_cons_of_mem a)

/-- A character that is replaced is gone, unless the new literal holds it. -/
theorem not_mem_replace_char {c : Char} {new : Text} (hnew : c ∉ new) (s : Text) :
    c ∉ replace [c] new s := by
  have nonempty : [c] ≠ [] := List.cons_ne_nil c []
  induction s using literalInduction nonempty with
  | nil => simp
  | found s ih =>
    rw [replace_append nonempty, List.mem_append, not_or]
    exact ⟨hnew, ih⟩
  | kept a s miss ih =>
    have ne : c ≠ a := by
      rintro rfl
      simp [stripStart?] at miss
    rw [replace_cons miss]
    exact List.not_mem_cons_of_ne_of_not_mem ne ih

end Gateware.Text
