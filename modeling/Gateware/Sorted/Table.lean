import Gateware.Sorted.Key

/-!
# Sorted tables

A finite map from keys is the list of its entries in rising order of the keys. Each operation is
described by what `get?` answers after it.
-/

namespace Gateware

structure Table (α β : Type) [Key α] where
  entries : List (α × β)
  sorted : entries.Pairwise fun a b => Key.lt a.1 b.1 = true

namespace Table

variable {α β γ : Type} [Key α]

def empty : Table α β := ⟨[], .nil⟩

instance : Inhabited (Table α β) := ⟨empty⟩

def keys (t : Table α β) : List α := t.entries.map Prod.fst

def values (t : Table α β) : List β := t.entries.map Prod.snd

def size (t : Table α β) : Nat := t.entries.length

def isEmpty (t : Table α β) : Bool := t.entries.isEmpty

/-! ### Looking up -/

/-- The value of the first entry under the key. -/
def look (k : α) : List (α × β) → Option β
  | [] => none
  | e :: l => if Key.same k e.1 then some e.2 else look k l

def get? (t : Table α β) (k : α) : Option β := look k t.entries

def contains (t : Table α β) (k : α) : Bool := (t.get? k).isSome

@[simp] theorem get?_empty (k : α) : (empty : Table α β).get? k = none := rfl

/-! ### Inserting -/

/-- The entry put at its place, instead of one under the same key. -/
def place (k : α) (v : β) : List (α × β) → List (α × β)
  | [] => [(k, v)]
  | e :: l =>
    if Key.lt k e.1 then (k, v) :: e :: l
    else if Key.lt e.1 k then e :: place k v l
    else (k, v) :: l

theorem mem_keys_place {k x : α} {v : β} {l : List (α × β)}
    (h : x ∈ (place k v l).map Prod.fst) : x = k ∨ x ∈ l.map Prod.fst := by
  fun_induction place k v l with
  | case1 => simpa using h
  | case2 => simpa using h
  | case3 e l _ _ ih =>
    rcases List.mem_cons.1 h with rfl | h
    · simp
    · rcases ih h with rfl | h
      · exact .inl rfl
      · exact .inr (List.mem_cons_of_mem _ h)
  | case4 e l _ _ =>
    rcases List.mem_cons.1 h with rfl | h
    · exact .inl rfl
    · exact .inr (List.mem_cons_of_mem _ h)

theorem mem_place {k : α} {v : β} {l : List (α × β)} {e : α × β} (h : e ∈ place k v l) :
    e = (k, v) ∨ e ∈ l := by
  fun_induction place k v l with
  | case1 => simpa using h
  | case2 => simpa using h
  | case3 e' l _ _ ih =>
    rcases List.mem_cons.1 h with rfl | h
    · exact .inr List.mem_cons_self
    · exact (ih h).imp_right (List.mem_cons_of_mem _)
  | case4 e' l _ _ => exact (List.mem_cons.1 h).imp_right (List.mem_cons_of_mem _)

theorem pairwise_place {k : α} {v : β} {l : List (α × β)}
    (h : l.Pairwise fun a b => Key.lt a.1 b.1 = true) :
    (place k v l).Pairwise fun a b => Key.lt a.1 b.1 = true := by
  fun_induction place k v l with
  | case1 => simp
  | case2 e l hk =>
    refine List.pairwise_cons.2 ⟨fun x hx => ?_, h⟩
    rcases List.mem_cons.1 hx with rfl | hx
    · exact hk
    · exact Key.trans hk ((List.pairwise_cons.1 h).1 x hx)
  | case3 e l _ he ih =>
    obtain ⟨hb, hl⟩ := List.pairwise_cons.1 h
    refine List.pairwise_cons.2 ⟨fun x hx => ?_, ih hl⟩
    rcases mem_keys_place (List.mem_map_of_mem hx) with e' | m
    · simpa [e'] using he
    · obtain ⟨y, hy, hyx⟩ := List.mem_map.1 m
      simpa [hyx] using hb y hy
  | case4 e l hk he =>
    obtain ⟨hb, hl⟩ := List.pairwise_cons.1 h
    have same := Key.eq_of_not_lt (by simpa using hk) (by simpa using he)
    refine List.pairwise_cons.2 ⟨fun x hx => ?_, hl⟩
    simpa [same] using hb x hx

def insert (t : Table α β) (k : α) (v : β) : Table α β :=
  ⟨place k v t.entries, pairwise_place t.sorted⟩

theorem look_place {k x : α} {v : β} {l : List (α × β)} :
    look x (place k v l) = if Key.same x k then some v else look x l := by
  fun_induction place k v l with
  | case1 => simp [look]
  | case2 => simp [look]
  | case3 e l _ he ih =>
    simp only [look, ih]
    by_cases h : Key.same x e.1 = true
    · rw [Key.same_iff] at h
      simp [h, Key.same, he]
    · simp [h]
  | case4 e l hk he =>
    have same := Key.eq_of_not_lt (by simpa using hk) (by simpa using he)
    simp only [look, ← same]
    split <;> simp_all

@[simp] theorem get?_insert {t : Table α β} {k x : α} {v : β} :
    (t.insert k v).get? x = if Key.same x k then some v else t.get? x := look_place

theorem mem_values_insert {t : Table α β} {k : α} {v w : β} (h : w ∈ (t.insert k v).values) :
    w = v ∨ w ∈ t.values := by
  obtain ⟨e, he, rfl⟩ := List.mem_map.1 h
  rcases mem_place he with rfl | he
  · exact .inl rfl
  · exact .inr (List.mem_map_of_mem he)

theorem mem_values_of_look {k : α} {v : β} {l : List (α × β)} (h : look k l = some v) :
    v ∈ l.map Prod.snd := by
  induction l with
  | nil => cases h
  | cons e l ih =>
    unfold look at h
    split at h
    · cases h
      exact List.mem_cons_self
    · exact List.mem_cons_of_mem _ (ih h)

theorem mem_values_of_get? {t : Table α β} {k : α} {v : β} (h : t.get? k = some v) :
    v ∈ t.values := mem_values_of_look h

theorem look_eq_some_iff {k : α} {v : β} {l : List (α × β)}
    (h : l.Pairwise fun a b => Key.lt a.1 b.1 = true) : look k l = some v ↔ (k, v) ∈ l := by
  induction l with
  | nil => simp [look]
  | cons e l ih =>
    obtain ⟨first, rest⟩ := List.pairwise_cons.1 h
    rw [look, List.mem_cons]
    split
    · rename_i same
      obtain rfl := Key.same_iff.1 same
      constructor
      · rintro ⟨⟩
        exact .inl rfl
      · rintro (this | later)
        · exact congrArg (fun x => some x.2) this.symm
        · -- a later entry has a greater key
          exact absurd (first _ later) (by simp [Key.irrefl])
    · rename_i other
      rw [ih rest]
      refine ⟨.inr, ?_⟩
      rintro (rfl | later)
      · exact absurd (Key.same_iff.2 rfl) other
      · exact later

/-- Looking up a key finds the entry that the table holds. -/
theorem get?_eq_some_iff {t : Table α β} {k : α} {v : β} :
    t.get? k = some v ↔ (k, v) ∈ t.entries := look_eq_some_iff t.sorted

def ofList (l : List (α × β)) : Table α β := l.foldl (fun t e => t.insert e.1 e.2) empty

/-! ### Removing and changing -/

def filter (p : α → β → Bool) (t : Table α β) : Table α β :=
  ⟨t.entries.filter fun e => p e.1 e.2, t.sorted.filter _⟩

def erase (t : Table α β) (k : α) : Table α β := t.filter fun x _ => !Key.same k x

theorem mem_values_erase {t : Table α β} {k : α} {v : β} (h : v ∈ (t.erase k).values) :
    v ∈ t.values := by
  obtain ⟨e, he, rfl⟩ := List.mem_map.1 h
  exact List.mem_map_of_mem (List.mem_filter.1 he).1

theorem look_filter {p : α → Bool} {x : α} {l : List (α × β)} :
    look x (l.filter fun e => p e.1) = if p x then look x l else none := by
  induction l with
  | nil => simp [look]
  | cons e l ih =>
    by_cases h : Key.same x e.1 = true
    · rw [Key.same_iff] at h
      subst h
      by_cases hp : p e.1 = true
      · simp [look, hp, Key.same, Key.irrefl]
      · simp [hp, ih]
    · by_cases hp : p e.1 = true
      · simp [look, hp, h, ih]
      · simp [look, hp, h, ih]

@[simp] theorem get?_erase {t : Table α β} {k x : α} :
    (t.erase k).get? x = if Key.same k x then none else t.get? x := by
  have := look_filter (p := fun a => !Key.same k a) (x := x) (l := t.entries)
  simp only [get?, erase, filter, this]
  cases Key.same k x <;> rfl

/-- The table with each value changed; the keys stay. -/
def mapValues (f : α → β → γ) (t : Table α β) : Table α γ :=
  ⟨t.entries.map fun e => (e.1, f e.1 e.2), by
    simpa [List.pairwise_map] using t.sorted⟩

theorem mem_values_mapValues {f : α → β → γ} {t : Table α β} {w : γ}
    (h : w ∈ (t.mapValues f).values) : ∃ k, ∃ v ∈ t.values, w = f k v := by
  obtain ⟨e, he, rfl⟩ := List.mem_map.1 h
  obtain ⟨e', he', rfl⟩ := List.mem_map.1 he
  exact ⟨e'.1, e'.2, List.mem_map_of_mem he', rfl⟩

theorem look_map {f : α → β → γ} {x : α} {l : List (α × β)} :
    look x (l.map fun e => (e.1, f e.1 e.2)) = (look x l).map (f x) := by
  induction l with
  | nil => rfl
  | cons e l ih =>
    by_cases h : Key.same x e.1 = true
    · rw [Key.same_iff] at h
      simp [look, h, Key.same, Key.irrefl]
    · simp [look, h, ih]

@[simp] theorem get?_mapValues {f : α → β → γ} {t : Table α β} {x : α} :
    (t.mapValues f).get? x = (t.get? x).map (f x) := look_map

/-- The table with the value under the key changed, if there is one. -/
def modify (t : Table α β) (k : α) (f : β → β) : Table α β :=
  t.mapValues fun x v => if Key.same k x then f v else v

end Table

end Gateware
