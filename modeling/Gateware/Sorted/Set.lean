import Gateware.Sorted.Key

/-!
# Sorted sets

A finite set of keys is its rising list, so two sets with the same members are equal
(`KeySet.ext_mem`). Each operation is described by its members.
-/

namespace Gateware

structure KeySet (α : Type) [Key α] where
  toList : List α
  sorted : toList.Pairwise fun a b => Key.lt a b = true

namespace KeySet

variable {α : Type} [Key α]

instance [DecidableEq α] : DecidableEq (KeySet α) := fun a b =>
  if h : a.toList = b.toList then
    isTrue (by cases a; cases b; simp_all)
  else
    isFalse fun e => h (congrArg toList e)

def empty : KeySet α := ⟨[], .nil⟩

instance : Inhabited (KeySet α) := ⟨empty⟩

instance : Membership α (KeySet α) := ⟨fun s a => a ∈ s.toList⟩

@[simp] theorem mem_toList {a : α} {s : KeySet α} : a ∈ s.toList ↔ a ∈ s := Iff.rfl

@[simp] theorem not_mem_empty {a : α} : ¬ a ∈ (empty : KeySet α) := List.not_mem_nil

/-! ### Insertion -/

/-- The key put at its place, unless it stands there already. -/
def place (a : α) : List α → List α
  | [] => [a]
  | b :: l =>
    if Key.lt a b then a :: b :: l
    else if Key.lt b a then b :: place a l
    else b :: l

theorem mem_place {a x : α} {l : List α} : x ∈ place a l ↔ x = a ∨ x ∈ l := by
  fun_induction place a l with
  | case1 => simp
  | case2 => simp
  | case3 b l h h' ih => simp [ih, or_left_comm]
  | case4 b l h h' =>
    obtain rfl := Key.eq_of_not_lt (by simpa using h) (by simpa using h')
    simp

theorem pairwise_place {a : α} {l : List α} (h : l.Pairwise fun a b => Key.lt a b = true) :
    (place a l).Pairwise fun a b => Key.lt a b = true := by
  fun_induction place a l with
  | case1 => simp
  | case2 b l hab =>
    refine List.pairwise_cons.2 ⟨fun x hx => ?_, h⟩
    rcases List.mem_cons.1 hx with rfl | hx
    · exact hab
    · exact Key.trans hab ((List.pairwise_cons.1 h).1 x hx)
  | case3 b l _ hba ih =>
    obtain ⟨hb, hl⟩ := List.pairwise_cons.1 h
    refine List.pairwise_cons.2 ⟨fun x hx => ?_, ih hl⟩
    rcases mem_place.1 hx with rfl | hx
    · exact hba
    · exact hb x hx
  | case4 => exact h

def insert (a : α) (s : KeySet α) : KeySet α := ⟨place a s.toList, pairwise_place s.sorted⟩

@[simp] theorem mem_insert {a x : α} {s : KeySet α} : x ∈ s.insert a ↔ x = a ∨ x ∈ s := mem_place

def ofList (l : List α) : KeySet α := l.foldr insert empty

@[simp] theorem mem_ofList {l : List α} {x : α} : x ∈ ofList l ↔ x ∈ l := by
  induction l with
  | nil => simp [ofList]
  | cons a l ih => simpa [ofList] using or_congr_right ih

/-! ### Other operations -/

def contains (s : KeySet α) (a : α) : Bool := s.toList.any (Key.same a)

@[simp] theorem contains_iff {s : KeySet α} {a : α} : s.contains a = true ↔ a ∈ s := by
  simp [contains, Key.same_iff]

@[simp] theorem contains_eq_false_iff {s : KeySet α} {a : α} : s.contains a = false ↔ ¬ a ∈ s := by
  rw [← contains_iff, Bool.not_eq_true]

def isEmpty (s : KeySet α) : Bool := s.toList.isEmpty

def size (s : KeySet α) : Nat := s.toList.length

def filter (p : α → Bool) (s : KeySet α) : KeySet α := ⟨s.toList.filter p, s.sorted.filter p⟩

@[simp] theorem mem_filter {p : α → Bool} {s : KeySet α} {x : α} :
    x ∈ s.filter p ↔ x ∈ s ∧ p x = true := List.mem_filter

def union (s t : KeySet α) : KeySet α := ofList (s.toList ++ t.toList)

@[simp] theorem mem_union {s t : KeySet α} {x : α} : x ∈ s.union t ↔ x ∈ s ∨ x ∈ t := by
  simp [union]

def inter (s t : KeySet α) : KeySet α := s.filter t.contains

@[simp] theorem mem_inter {s t : KeySet α} {x : α} : x ∈ s.inter t ↔ x ∈ s ∧ x ∈ t := by
  simp [inter]

def diff (s t : KeySet α) : KeySet α := s.filter fun a => !t.contains a

@[simp] theorem mem_diff {s t : KeySet α} {x : α} : x ∈ s.diff t ↔ x ∈ s ∧ ¬ x ∈ t := by
  simp [diff]

def map {β : Type} [Key β] (f : α → β) (s : KeySet α) : KeySet β := ofList (s.toList.map f)

@[simp] theorem mem_map {β : Type} [Key β] {f : α → β} {s : KeySet α} {y : β} :
    y ∈ s.map f ↔ ∃ x, x ∈ s ∧ f x = y := by
  simp [map]

/-! ### Extensionality -/

theorem eq_of_sorted {l l' : List α} (h : l.Pairwise fun a b => Key.lt a b = true)
    (h' : l'.Pairwise fun a b => Key.lt a b = true) (mem : ∀ x, x ∈ l ↔ x ∈ l') : l = l' := by
  induction l generalizing l' with
  | nil => exact (List.eq_nil_iff_forall_not_mem.2 fun x hx => by simpa using (mem x).2 hx).symm
  | cons a l ih =>
    match l' with
    | [] => exact absurd ((mem a).1 (by simp)) (by simp)
    | b :: l' =>
      obtain ⟨ha, hl⟩ := List.pairwise_cons.1 h
      obtain ⟨hb, hl'⟩ := List.pairwise_cons.1 h'
      have hab : a = b := by
        rcases List.mem_cons.1 ((mem a).1 (by simp)) with e | m
        · exact e
        rcases List.mem_cons.1 ((mem b).2 (by simp)) with e | m'
        · exact e.symm
        exact absurd (Key.trans (ha b m') (hb a m)) (by simp [Key.irrefl])
      subst hab
      congr 1
      refine ih hl hl' fun x => ⟨fun hx => ?_, fun hx => ?_⟩
      · rcases List.mem_cons.1 ((mem x).1 (List.mem_cons_of_mem _ hx)) with rfl | m
        · exact absurd (ha x hx) (by simp [Key.irrefl])
        · exact m
      · rcases List.mem_cons.1 ((mem x).2 (List.mem_cons_of_mem _ hx)) with rfl | m
        · exact absurd (hb x hx) (by simp [Key.irrefl])
        · exact m

theorem ext_mem {s t : KeySet α} (h : ∀ x, x ∈ s ↔ x ∈ t) : s = t := by
  have := eq_of_sorted s.sorted t.sorted h
  cases s
  cases t
  simp_all

end KeySet

end Gateware
