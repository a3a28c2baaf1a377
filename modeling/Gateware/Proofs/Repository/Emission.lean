import Gateware.Proofs.FileTree.Writing
import Gateware.Proofs.Repository.Run

/-!
# What is emitted

Outputs that go to places of their own below one directory all stand in the tree when they are
written, each with its text; apart from their places nothing changes but for directories that were
missing (`emits_writeAll`). Writing them again changes no text (`writeAll_again`).
-/

namespace Gateware

open Text FileTree

namespace Output

variable {t u v : FileTree} {root q : Path} {R l x : Location} {names : List Text} {last : Text}
  {time time' : Timestamp} {o : Output} {outputs : List Output}

/-- The node that an output is written as. -/
def node (o : Output) (time : Timestamp) : Node := .file (some (unlines o.lines)) time

/-- The output stands in the tree with the time, in its directory. -/
structure HoldsAt (o : Output) (time : Timestamp) (u : FileTree) (l : Location) : Prop where
  place : u.place o.path = .ok l
  node : u.node? l = some (o.node time)
  parent : ∀ q, o.path.parent? = some q → Makeable q ∧ ∃ D, Leads u q D

def Holds (o : Output) (time : Timestamp) (u : FileTree) : Prop := ∃ l, o.HoldsAt time u l

theorem Holds.read (h : o.Holds time u) : u.read o.path = .ok (unlines o.lines) := by
  obtain ⟨l, h⟩ := h
  unfold FileTree.read
  rw [find_eq_ok.mpr ⟨h.place, h.node⟩]
  rfl

/-- An output stays when the tree grows and its place is left alone. -/
theorem HoldsAt.mono (h : o.HoldsAt time t l) (grows : Grows t u)
    (same : u.node? l = some (o.node time')) : o.HoldsAt time' u l where
  place := grows.place h.place
  node := same
  parent q hq := by
    obtain ⟨fine, D, leads⟩ := h.parent q hq
    exact ⟨fine, D, grows.leads leads⟩

theorem write_of_parent (parent : o.path.parent? = some q) :
    o.write time t = (u, none) ↔ ∃ s, t.createDirectory q = (s, none) ∧
      s.write o.path (some (unlines o.lines)) time = .ok u := by
  unfold write
  rw [parent]
  cases made : t.createDirectory q with
  | mk s e =>
    cases e with
    | some e => simp [made]
    | none =>
      simp only [made, Option.map_none, Prod.mk.injEq, and_true, exists_eq_left']
      cases s.write o.path (some (unlines o.lines)) time with
      | error e => simp
      | ok u => simp

theorem grows_write (h : o.write time t = (u, none)) : Grows t u := by
  cases parent : o.path.parent? with
  | some q =>
    obtain ⟨s, made, written⟩ := (write_of_parent parent).mp h
    obtain ⟨l, -, other, rfl⟩ := write_eq_ok.mp written
    have grows := grows_createDirectory t q
    rw [made] at grows
    exact grows.trans (grows_put_file other)
  | none =>
    unfold write at h
    rw [parent] at h
    simp only at h
    split at h
    · rename_i written
      cases h
      obtain ⟨l, -, other, rfl⟩ := write_eq_ok.mp written
      exact grows_put_file other
    · cases h

/-! ### The first time -/

/-- No more is changed than the places of the outputs, and directories that were missing on the way
to them from the place of the root. -/
structure Covers (root : Path) (R : Location) (outputs : List Output) (t u : FileTree) : Prop where
  grows : Grows t u
  rest : ∀ x, u.node? x = t.node? x ∨ (∃ o ∈ outputs, u.place o.path = .ok x) ∨
    t.node? x = none ∧ u.node? x = some .directory ∧ ∃ o ∈ outputs, ∃ names,
      Path.Below root names o.path ∧ ∃ front, front <+: names ∧ x = R ++ front

/-- The outputs are written, and no more is changed. -/
structure Emits (root : Path) (R : Location) (time : Timestamp) (outputs : List Output)
    (t u : FileTree) : Prop extends Covers root R outputs t u where
  holds : ∀ o ∈ outputs, o.Holds time u

/-- What leads to a file leads to the directory that it stands in. -/
theorem leads_parent (h : u.place o.path = .ok l) (below : Path.Below root (names ++ [last]) o.path)
    (above : Path.Below root names q) : ∃ D, Leads u q D := by
  have led := steps_of_place h
  have steps : o.path.steps = q.steps ++ [.name last] := by
    rw [below.steps, above.steps, List.map_append, List.append_assoc]
    rfl
  rw [steps, start_of_absolute (below.absolute.trans above.absolute.symm), List.foldlM_append,
    bind_eq_ok] at led
  obtain ⟨D, way, onward⟩ := led
  exact ⟨D, way, directory_of_advance (foldlM_one.mp onward)⟩

theorem emits_write (leads : Leads t root R) (below : Path.Below root (names ++ [last]) o.path)
    (h : o.write time t = (u, none)) : Emits root R time [o] t u := by
  obtain ⟨q, parent, above⟩ := below.parent
  obtain ⟨s, made, written⟩ := (write_of_parent parent).mp h
  obtain ⟨l, placed, other, rfl⟩ := write_eq_ok.mp written
  have way := makesWay_of_created leads above made
  have grows : Grows s (s.put l (o.node time)) := grows_put_file other
  have placed' := grows.place placed
  have node (x : Location) := @node?_put s l x (o.node time) (below_root other)
  refine ⟨⟨way.grows.trans grows, fun x => ?_⟩, fun o' ho' => ?_⟩
  · by_cases own : x = l
    · exact .inr (.inl ⟨o, List.mem_cons_self, own ▸ placed'⟩)
    · have kept : (s.put l (o.node time)).node? x = s.node? x := (node x).trans (if_neg own)
      change (s.put l (o.node time)).node? x = _ ∨ _ ∨ _ ∧ (s.put l (o.node time)).node? x = _ ∧ _
      rw [kept]
      rcases way.rest x with same | ⟨none, directory, front, before, rfl⟩
      · exact .inl same
      · exact .inr (.inr ⟨none, directory, o, List.mem_cons_self, names ++ [last], below, front,
          before.trans (List.prefix_append names [last]), rfl⟩)
  · obtain rfl := List.mem_singleton.mp ho'
    refine ⟨l, placed', (node l).trans (if_pos rfl), fun q' hq' => ?_⟩
    obtain rfl := Option.some.inj (parent.symm.trans hq')
    exact ⟨makeable_of_created made, leads_parent placed' below above⟩

/-- An output, then others with places of their own. -/
theorem Emits.cons (leads : Leads t root R) (below : Path.Below root names o.path)
    (first : Emits root R time [o] t u) (later : Emits root R time outputs u v)
    (under : ∀ o' ∈ outputs, ∃ names', Path.Below root names' o'.path)
    (apart : ∀ o' ∈ outputs, o.path.steps ≠ o'.path.steps) :
    Emits root R time (o :: outputs) t v := by
  obtain ⟨l, held⟩ := first.holds o List.mem_cons_self
  have place := (first.grows.leads leads).place below held.place
  have kept : v.node? l = u.node? l := by
    rcases later.rest l with same | ⟨o', ho', placed⟩ | ⟨none, -⟩
    · exact same
    · -- two outputs at one place would have the same steps
      obtain ⟨names', below'⟩ := under o' ho'
      have place' := ((first.grows.trans later.grows).leads leads).place below' placed
      rw [place, List.append_cancel_left_eq] at place'
      exact absurd (below.steps.trans (place' ▸ below'.steps.symm)) (apart o' ho')
    · rw [held.node] at none
      cases none
  refine ⟨⟨first.grows.trans later.grows, fun x => ?_⟩, fun o' ho' => ?_⟩
  · rcases later.rest x with same | ⟨o', ho', placed⟩ | ⟨none, directory, o', ho', way⟩
    · rcases first.rest x with same' | ⟨o', ho', placed⟩ | ⟨none, directory, o', ho', way⟩
      · exact .inl (same.trans same')
      · obtain rfl := List.mem_singleton.mp ho'
        exact .inr (.inl ⟨o', List.mem_cons_self, later.grows.place placed⟩)
      · obtain rfl := List.mem_singleton.mp ho'
        exact .inr (.inr ⟨none, same.trans directory, o', List.mem_cons_self, way⟩)
    · exact .inr (.inl ⟨o', List.mem_cons_of_mem o ho', placed⟩)
    · refine .inr (.inr ⟨?_, directory, o', List.mem_cons_of_mem o ho', way⟩)
      rcases first.rest x with same' | ⟨o', ho', placed⟩ | ⟨none', -⟩
      · exact same'.symm.trans none
      · obtain rfl := List.mem_singleton.mp ho'
        obtain rfl := Except.ok.inj (held.place.symm.trans placed)
        rw [held.node] at none
        cases none
      · exact none'
  · rcases List.mem_cons.mp ho' with rfl | ho'
    · exact ⟨l, held.mono later.grows (kept.trans held.node)⟩
    · exact later.holds o' ho'

theorem emits_nil (t : FileTree) : Emits root R time [] t t :=
  ⟨⟨Grows.refl t, fun _ => .inl rfl⟩, nofun⟩

theorem emits_writeAll (leads : Leads t root R)
    (below : ∀ o ∈ outputs, ∃ names last, Path.Below root (names ++ [last]) o.path)
    (apart : outputs.Pairwise fun o o' => o.path.steps ≠ o'.path.steps)
    (h : (writeAll time t outputs).2.2 = none) :
    Emits root R time outputs t (writeAll time t outputs).1 := by
  induction outputs generalizing t with
  | nil => exact emits_nil t
  | cons o outputs ih =>
    obtain ⟨first, later⟩ := List.pairwise_cons.mp apart
    unfold writeAll at h ⊢
    split at h
    · cases h
    · rename_i u written
      obtain ⟨names, last, here⟩ := below o List.mem_cons_self
      have one := emits_write leads here written
      have others (o' : Output) (ho' : o' ∈ outputs) := below o' (List.mem_cons_of_mem o ho')
      have more := ih (one.grows.leads leads) others later h
      simp only
      refine one.cons leads here more (fun o' ho' => ?_) first
      obtain ⟨names', last', below'⟩ := others o' ho'
      exact ⟨_, below'⟩

theorem grows_writeAll (h : (writeAll time t outputs).2.2 = none) :
    Grows t (writeAll time t outputs).1 := by
  induction outputs generalizing t with
  | nil => exact Grows.refl t
  | cons o outputs ih =>
    unfold writeAll at h ⊢
    split at h
    · cases h
    · rename_i u written
      exact (grows_write written).trans (ih h)

theorem writeAll_cons (h : o.write time t = (u, none)) (outputs : List Output) :
    writeAll time t (o :: outputs) = ((writeAll time u outputs).1,
      o.path :: (writeAll time u outputs).2.1, (writeAll time u outputs).2.2) := by
  rw [writeAll, h]

theorem writeAll_append {more : List Output} (h : (writeAll time t outputs).2.2 = none) :
    writeAll time t (outputs ++ more) =
      ((writeAll time (writeAll time t outputs).1 more).1,
        (writeAll time t outputs).2.1 ++ (writeAll time (writeAll time t outputs).1 more).2.1,
        (writeAll time (writeAll time t outputs).1 more).2.2) := by
  induction outputs generalizing t with
  | nil => rfl
  | cons o outputs ih =>
    unfold writeAll at h
    rw [List.cons_append]
    split at h
    · cases h
    · rename_i u written
      rw [writeAll_cons written, writeAll_cons written, ih h]
      rfl

/-! ### Once more -/

theorem write_again (h : o.HoldsAt time t l) :
    o.write time' t = (t.put l (o.node time'), none) := by
  have other : t.node? l ≠ some .directory := by
    rw [h.node]
    nofun
  have written : t.write o.path (some (unlines o.lines)) time' = .ok (t.put l (o.node time')) :=
    write_eq_ok.mpr ⟨l, h.place, other, rfl⟩
  cases parent : o.path.parent? with
  | some q =>
    obtain ⟨fine, D, leads⟩ := h.parent q parent
    exact (write_of_parent parent).mpr ⟨t, createDirectory_again fine leads, written⟩
  | none =>
    unfold write
    rw [parent]
    simp only [written]

theorem Holds.of_sameTexts (h : o.Holds time t) (same : SameTexts t u) :
    ∃ time', o.Holds time' u := by
  obtain ⟨l, held⟩ := h
  obtain ⟨time', file⟩ := same.file held.node
  exact ⟨time', l, held.mono same.grows file⟩

/-- What writing does to a tree in which the outputs stand already. -/
structure Rewrites (outputs : List Output) (t u : FileTree) : Prop where
  same : SameTexts t u
  rest : ∀ x, u.node? x = t.node? x ∨ ∃ o ∈ outputs, t.place o.path = .ok x

/-- Outputs that stand in the tree are written again, and no text changes. -/
theorem writeAll_again (h : ∀ o ∈ outputs, ∃ time, o.Holds time t) :
    (writeAll time' t outputs).2.2 = none ∧
      Rewrites outputs t (writeAll time' t outputs).1 := by
  induction outputs generalizing t with
  | nil => exact ⟨rfl, SameTexts.refl t, fun _ => .inl rfl⟩
  | cons o outputs ih =>
    obtain ⟨time, l, held⟩ := h o List.mem_cons_self
    have below : l ≠ [] := below_root (by rw [held.node]; nofun)
    have same : SameTexts t (t.put l (o.node time')) := sameTexts_put held.node
    obtain ⟨done, later⟩ := @ih (t.put l (o.node time')) fun o' ho' => by
      obtain ⟨time, held'⟩ := h o' (List.mem_cons_of_mem o ho')
      exact held'.of_sameTexts same
    rw [writeAll_cons (write_again held)]
    refine ⟨done, same.trans later.same, fun x => ?_⟩
    rcases later.rest x with kept | ⟨o', ho', placed⟩
    · by_cases own : x = l
      · exact .inr ⟨o, List.mem_cons_self, own ▸ held.place⟩
      · exact .inl (kept.trans ((node?_put below).trans (if_neg own)))
    · exact .inr ⟨o', List.mem_cons_of_mem o ho', same.symm.grows.place placed⟩

theorem Covers.rewrite {some : List Output} (covers : Covers root R outputs t u)
    (again : Rewrites some u v) (sub : some ⊆ outputs) : Covers root R outputs t v where
  grows := covers.grows.trans again.same.grows
  rest x := by
    rcases again.rest x with kept | ⟨o, ho, placed⟩
    · rcases covers.rest x with same | ⟨o, ho, placed⟩ | ⟨none, directory, way⟩
      · exact .inl (kept.trans same)
      · exact .inr (.inl ⟨o, ho, again.same.grows.place placed⟩)
      · exact .inr (.inr ⟨none, kept.trans directory, way⟩)
    · exact .inr (.inl ⟨o, sub ho, again.same.grows.place placed⟩)

/-- At the same time nothing changes at all. -/
theorem writeAll_same (h : ∀ o ∈ outputs, o.Holds time t) : (writeAll time t outputs).1 = t := by
  induction outputs generalizing t with
  | nil => rfl
  | cons o outputs ih =>
    obtain ⟨l, held⟩ := h o List.mem_cons_self
    have below : l ≠ [] := below_root (by rw [held.node]; nofun)
    have same : t.put l (o.node time) = t := put_self held.node below
    rw [writeAll_cons (write_again held), same]
    exact ih fun o' ho' => h o' (List.mem_cons_of_mem o ho')

end Output

end Gateware
