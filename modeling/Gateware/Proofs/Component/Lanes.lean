import Gateware.Component.Merge
import Gateware.Proofs.Component.Mention
import Mathlib.Data.List.Forall2
import Mathlib.Data.Set.Card

/-!
# What merging lanes means

`Merges` says of a list of ports or buses what stands for it, item by item: those that are no lanes
stay, the first lane of each wildcard is replaced by an item that stands for all of them, and the
others go. Merging answers that list and no other (`merge_eq_iff_merges`).
-/

namespace Gateware

open LaneName (Starred)

/-- The port `r` stands for the lanes of a wildcard, of which `p` is the first. -/
structure Port.StandsFor (n : LaneName) (range : Nat × Nat) (p r : Port) : Prop where
  name : r.name = n.wildcard
  direction : r.direction = p.direction
  dependency : Option.Rel (Starred n.digits) p.dependency r.dependency
  index : r.index = some range

/-- Within a bus of lanes, a port of the same number stands under its own wildcard. -/
structure PortMap.StandsFor (n : LaneName) (m r : PortMap) : Prop where
  same : ∀ inner, LaneName.ofText? m.physical = some inner → inner.digits = n.digits →
    r.physical = inner.wildcard
  other : (∀ inner, LaneName.ofText? m.physical = some inner → inner.digits ≠ n.digits) →
    r.physical = m.physical
  logical : r.logical = m.logical
  direction : r.direction = m.direction
  dependency : Option.Rel (Starred n.digits) m.dependency r.dependency

structure BusInterface.StandsFor (n : LaneName) (range : Nat × Nat) (b r : BusInterface) :
    Prop where
  name : r.name = n.wildcard
  busType : r.busType = b.busType
  role : r.role = b.role
  dependency : Option.Rel (Starred n.digits) b.dependency r.dependency
  portMap : List.Forall₂ (PortMap.StandsFor n) b.portMap r.portMap
  index : r.index = some range

namespace Lanes

section

variable {α : Type} [Laned α]

/-- The name of the item tells the lane, and its own dependency mentions it. -/
def IsLane (a : α) (n : LaneName) : Prop :=
  LaneName.ofText? (Laned.name a) = some n ∧
    ∃ s, Laned.dependency a = some s ∧ LaneName.Mentions n.digits s

def Confirmed (a : α) : Prop := ∃ n, IsLane a n

def wildcards (items : List α) : Set Text := {w | ∃ a ∈ items, ∃ n, IsLane a n ∧ n.wildcard = w}

def indices (items : List α) (w : Text) : Set Nat :=
  {i | ∃ a ∈ items, ∃ n, IsLane a n ∧ n.wildcard = w ∧ n.index = i}

/-- The items from some place of a list on, and what stands for them in the result; `earlier` is
what comes before that place. -/
inductive Merges (StandsFor : LaneName → Nat × Nat → α → α → Prop) :
    (earlier items result : List α) → Prop
  | done {earlier : List α} : Merges StandsFor earlier [] []
  | kept {earlier items result : List α} {a : α} (apart : ¬ Confirmed a)
      (rest : Merges StandsFor (earlier ++ [a]) items result) :
      Merges StandsFor earlier (a :: items) (a :: result)
  | first {earlier items result : List α} {a r : α} {n : LaneName} {low high : Nat}
      (lane : IsLane a n) (new : n.wildcard ∉ wildcards earlier)
      (least : IsLeast (indices (earlier ++ a :: items) n.wildcard) low)
      (greatest : IsGreatest (indices (earlier ++ a :: items) n.wildcard) high)
      (stands : StandsFor n (low, high) a r)
      (rest : Merges StandsFor (earlier ++ [a]) items result) :
      Merges StandsFor earlier (a :: items) (r :: result)
  | further {earlier items result : List α} {a : α} {n : LaneName}
      (lane : IsLane a n) (old : n.wildcard ∈ wildcards earlier)
      (rest : Merges StandsFor (earlier ++ [a]) items result) :
      Merges StandsFor earlier (a :: items) result

/-! ### Lanes -/

theorem IsLane.unique {a : α} {n m : LaneName} (h : IsLane a n) (h' : IsLane a m) : n = m :=
  Option.some_inj.mp (h.1.symm.trans h'.1)

theorem confirmed?_eq_some_iff {a : α} {n : LaneName} : confirmed? a = some n ↔ IsLane a n := by
  unfold confirmed? IsLane
  rw [Option.filter_eq_some_iff]
  refine and_congr_right fun named => ?_
  have solid := LaneName.solid_of_ofText? named
  cases Laned.dependency a with
  | none => simp
  | some s => simp [LaneName.isMentioned_iff solid]

theorem confirmed?_eq_none_iff {a : α} : confirmed? a = none ↔ ¬ Confirmed a := by
  simp only [Option.eq_none_iff_forall_ne_some, ne_eq, confirmed?_eq_some_iff, Confirmed,
    not_exists]

instance (a : α) : Decidable (Confirmed a) :=
  decidable_of_iff (confirmed? a).isSome (by
    simp only [Option.isSome_iff_exists, confirmed?_eq_some_iff, Confirmed])

theorem wildcards_append (items items' : List α) :
    wildcards (items ++ items') = wildcards items ∪ wildcards items' := by
  ext w
  simp only [wildcards, Set.mem_union, Set.mem_ofPred_eq, List.mem_append, or_and_right, exists_or]

theorem wildcards_of_apart {a : α} (apart : ¬ Confirmed a) : wildcards [a] = ∅ := by
  ext w
  simp only [Confirmed, not_exists] at apart
  simp [wildcards, apart]

theorem wildcards_of_lane {a : α} {n : LaneName} (lane : IsLane a n) :
    wildcards [a] = {n.wildcard} := by
  ext w
  simp only [wildcards, List.mem_singleton, exists_eq_left, Set.mem_ofPred_eq,
    Set.mem_singleton_iff]
  constructor
  · rintro ⟨m, h, rfl⟩
    rw [h.unique lane]
  · rintro rfl
    exact ⟨n, lane, rfl⟩

theorem finite_wildcards (items : List α) : (wildcards items).Finite := by
  induction items with
  | nil => simp [wildcards]
  | cons a items ih =>
    rw [← List.singleton_append, wildcards_append]
    refine Set.Finite.union ?_ ih
    by_cases lane : Confirmed a
    · obtain ⟨n, lane⟩ := lane
      rw [wildcards_of_lane lane]
      exact Set.finite_singleton _
    · rw [wildcards_of_apart lane]
      exact Set.finite_empty

theorem indices_append (items items' : List α) (w : Text) :
    indices (items ++ items') w = indices items w ∪ indices items' w := by
  ext i
  simp only [indices, Set.mem_union, Set.mem_ofPred_eq, List.mem_append, or_and_right, exists_or]

theorem indices_of_lane {a : α} {n : LaneName} (lane : IsLane a n) :
    indices [a] n.wildcard = {n.index} := by
  ext i
  simp only [indices, List.mem_singleton, exists_eq_left, Set.mem_ofPred_eq,
    Set.mem_singleton_iff]
  constructor
  · rintro ⟨m, h, -, rfl⟩
    rw [h.unique lane]
  · rintro rfl
    exact ⟨n, lane, rfl, rfl⟩

theorem indices_of_notMem {items : List α} {w : Text} (h : w ∉ wildcards items) :
    indices items w = ∅ := by
  rw [Set.eq_empty_iff_forall_notMem]
  rintro i ⟨a, place, n, lane, same, -⟩
  exact h ⟨a, place, n, lane, same⟩

namespace Merges

variable {StandsFor StandsFor' : LaneName → Nat × Nat → α → α → Prop} {earlier items : List α}

theorem imp (h : ∀ {n range a r}, IsLane a n → StandsFor n range a r → StandsFor' n range a r)
    {result : List α} (merges : Merges StandsFor earlier items result) :
    Merges StandsFor' earlier items result := by
  induction merges with
  | done => exact .done
  | kept apart _ ih => exact .kept apart ih
  | first lane new least greatest stands _ ih =>
    exact .first lane new least greatest (h lane stands) ih
  | further lane old _ ih => exact .further lane old ih

/-- Nothing else stands for the items when nothing else stands for the lanes of a wildcard. -/
theorem unique
    (same : ∀ {n range a r r'}, StandsFor n range a r → StandsFor n range a r' → r = r')
    {result result' : List α} (h : Merges StandsFor earlier items result)
    (h' : Merges StandsFor earlier items result') : result = result' := by
  induction h generalizing result' with
  | done =>
    cases h'
    rfl
  | kept apart _ ih =>
    cases h' with
    | kept _ rest => rw [ih rest]
    | first lane => exact absurd ⟨_, lane⟩ apart
    | further lane => exact absurd ⟨_, lane⟩ apart
  | first lane new least greatest stands _ ih =>
    cases h' with
    | kept apart => exact absurd ⟨_, lane⟩ apart
    | first lane' _ least' greatest' stands' rest =>
      obtain rfl := lane.unique lane'
      obtain rfl := least.unique least'
      obtain rfl := greatest.unique greatest'
      rw [same stands stands', ih rest]
    | further lane' old =>
      obtain rfl := lane.unique lane'
      exact absurd old new
  | further lane old _ ih =>
    cases h' with
    | kept apart => exact absurd ⟨_, lane⟩ apart
    | first lane' new =>
      obtain rfl := lane.unique lane'
      exact absurd old new
    | further _ _ rest => exact ih rest

theorem length_eq {result : List α} (h : Merges StandsFor earlier items result) :
    result.length = items.countP (fun a => ¬ Confirmed a) +
      (wildcards items \ wildcards earlier).ncard := by
  induction h with
  | done => simp [wildcards]
  | @kept earlier items result a apart _ ih =>
    have left : wildcards (a :: items) \ wildcards earlier =
        wildcards items \ wildcards (earlier ++ [a]) := by
      rw [← List.singleton_append, wildcards_append, wildcards_append, wildcards_of_apart apart,
        Set.empty_union, Set.union_empty]
    rw [List.length_cons, ih, left,
      List.countP_cons_of_pos (by simpa using apart)]
    omega
  | @first earlier items result a r n low high lane new least greatest stands _ ih =>
    have left : wildcards (a :: items) \ wildcards earlier =
        insert n.wildcard (wildcards items \ wildcards (earlier ++ [a])) := by
      rw [← List.singleton_append, wildcards_append, wildcards_append, wildcards_of_lane lane]
      ext w
      simp only [Set.mem_sdiff, Set.mem_union, Set.mem_singleton_iff, Set.mem_insert_iff]
      by_cases same : w = n.wildcard
      · simp [same, new]
      · simp [same]
    have apart : n.wildcard ∉ wildcards items \ wildcards (earlier ++ [a]) := by
      rw [wildcards_append, wildcards_of_lane lane]
      simp
    have finite := (finite_wildcards items).subset
      (Set.sdiff_subset (t := wildcards (earlier ++ [a])))
    rw [List.length_cons, ih, left, Set.ncard_insert_of_notMem apart finite,
      List.countP_cons_of_neg (by simpa using ⟨n, lane⟩)]
    omega
  | @further earlier items result a n lane old _ ih =>
    have left : wildcards (a :: items) \ wildcards earlier =
        wildcards items \ wildcards (earlier ++ [a]) := by
      rw [← List.singleton_append, wildcards_append, wildcards_append, wildcards_of_lane lane]
      ext w
      simp only [Set.mem_sdiff, Set.mem_union, Set.mem_singleton_iff]
      by_cases same : w = n.wildcard
      · simp [same, old]
      · simp [same]
    rw [ih, left,
      List.countP_cons_of_neg (by simpa using ⟨n, lane⟩)]

end Merges

/-! ### One pass -/

/-- An item can be given another range of lanes, and keeps nothing of the one before. -/
class LawfulLaned (α : Type) [Laned α] : Prop where
  index_withIndex : ∀ (a : α) i, Laned.index (Laned.withIndex a i) = i
  withIndex_withIndex : ∀ (a : α) i j,
    Laned.withIndex (Laned.withIndex a i) j = Laned.withIndex a j

/-- What becomes of a slot when the item is added. -/
def Slot.join (s : Slot α) (a : α) : Slot α :=
  match confirmed? a with
  | none => s
  | some n => if s.wildcard = some n.wildcard then s.widen n.index else s

def Slot.joined (s : Slot α) (items : List α) : Slot α := items.foldl Slot.join s

theorem Slot.joined_cons (s : Slot α) (a : α) (items : List α) :
    s.joined (a :: items) = (s.join a).joined items := rfl

theorem Slot.join_of_ne {s : Slot α} {a : α}
    (h : ∀ n, IsLane a n → s.wildcard ≠ some n.wildcard) : s.join a = s := by
  unfold join
  split
  · rfl
  · rename_i n lane
    rw [if_neg (h n (confirmed?_eq_some_iff.mp lane))]

theorem Slot.join_of_eq {s : Slot α} {a : α} {n : LaneName} (lane : IsLane a n)
    (h : s.wildcard = some n.wildcard) : s.join a = s.widen n.index := by
  unfold join
  rw [confirmed?_eq_some_iff.mpr lane]
  simp only [h, if_true]

theorem Slot.joined_apart (a : α) (items : List α) :
    (Slot.mk a none).joined items = ⟨a, none⟩ := by
  induction items with
  | nil => rfl
  | cons b items ih => rw [joined_cons, join_of_ne (by simp), ih]

theorem Slot.joined_item [LawfulLaned α] (items : List α) (w : Text) (b : α) {lanes : Set Nat}
    {low high : Nat} (least : IsLeast lanes low) (greatest : IsGreatest lanes high) :
    ∃ low' high', IsLeast (lanes ∪ indices items w) low' ∧
      IsGreatest (lanes ∪ indices items w) high' ∧
      (Slot.mk (Laned.withIndex b (some (low, high))) (some w)).joined items =
        ⟨Laned.withIndex b (some (low', high')), some w⟩ := by
  induction items generalizing lanes low high with
  | nil => exact ⟨low, high, by simpa [indices] using least, by simpa [indices] using greatest, rfl⟩
  | cons a items ih =>
    rw [← List.singleton_append, indices_append, ← Set.union_assoc, List.singleton_append]
    by_cases lane : ∃ n, IsLane a n ∧ n.wildcard = w
    · obtain ⟨n, lane, rfl⟩ := lane
      have widened : (Slot.mk (Laned.withIndex b (some (low, high))) (some n.wildcard)).widen
          n.index = ⟨Laned.withIndex b (some (min low n.index, max high n.index)),
            some n.wildcard⟩ := by
        unfold Slot.widen
        simp only [LawfulLaned.index_withIndex, LawfulLaned.withIndex_withIndex]
      rw [joined_cons, join_of_eq lane rfl, widened, indices_of_lane lane]
      exact ih (least.union isLeast_singleton) (greatest.union isGreatest_singleton)
    · have other : w ∉ wildcards [a] := by
        rintro ⟨b, place, n, laneB, same⟩
        obtain rfl := List.mem_singleton.mp place
        exact lane ⟨n, laneB, same⟩
      have apart : ∀ n, IsLane a n → (some w : Option Text) ≠ some n.wildcard :=
        fun n laneA same => lane ⟨n, laneA, (Option.some_inj.mp same).symm⟩
      rw [indices_of_notMem other, Set.union_empty, joined_cons, join_of_ne apart]
      exact ih least greatest

theorem add_of_apart {a : α} (apart : ¬ Confirmed a) (slots : List (Slot α)) :
    add slots a = slots ++ [⟨a, none⟩] := by
  unfold add
  rw [confirmed?_eq_none_iff.mpr apart]

theorem add_of_old {a : α} {n : LaneName} (lane : IsLane a n) {slots : List (Slot α)}
    (old : ∃ s ∈ slots, s.wildcard = some n.wildcard) : add slots a = slots.map (·.join a) := by
  have stands : slots.any (·.wildcard == some n.wildcard) = true := by
    simpa only [List.any_eq_true, beq_iff_eq] using old
  have each : ∀ s : Slot α, s.join a = if s.wildcard = some n.wildcard then s.widen n.index else s := by
    intro s
    unfold Slot.join
    rw [confirmed?_eq_some_iff.mpr lane]
  unfold add
  rw [confirmed?_eq_some_iff.mpr lane]
  simp only [stands, if_true, each]

theorem add_of_new {a : α} {n : LaneName} (lane : IsLane a n) {slots : List (Slot α)}
    (new : ¬ ∃ s ∈ slots, s.wildcard = some n.wildcard) :
    add slots a = slots ++ [Slot.ofLane a n] := by
  have absent : slots.any (·.wildcard == some n.wildcard) = false := by
    simpa only [Bool.eq_false_iff, ne_eq, List.any_eq_true, beq_iff_eq] using new
  unfold add
  rw [confirmed?_eq_some_iff.mpr lane]
  simp only [absent, Bool.false_eq_true, if_false]

theorem wildcard_join (s : Slot α) (a : α) : (s.join a).wildcard = s.wildcard := by
  unfold Slot.join
  split
  · rfl
  · split <;> rfl

/-- The slots stand for the items whose wildcards they have. -/
def Knows (slots : List (Slot α)) (earlier : List α) : Prop :=
  ∀ w, (∃ s ∈ slots, s.wildcard = some w) ↔ w ∈ wildcards earlier

theorem Knows.add {slots : List (Slot α)} {earlier : List α} (h : Knows slots earlier) (a : α) :
    Knows (Lanes.add slots a) (earlier ++ [a]) := by
  intro w
  rw [wildcards_append, Set.mem_union, ← h]
  by_cases confirmed : Confirmed a
  · obtain ⟨n, lane⟩ := confirmed
    rw [wildcards_of_lane lane, Set.mem_singleton_iff]
    by_cases old : ∃ s ∈ slots, s.wildcard = some n.wildcard
    · rw [add_of_old lane old]
      simp only [List.mem_map, exists_exists_and_eq_and, wildcard_join]
      exact ⟨.inl, fun known => known.elim id fun same => same ▸ old⟩
    · rw [add_of_new lane old]
      simp [or_and_right, exists_or, Slot.ofLane, eq_comm]
  · rw [add_of_apart confirmed, wildcards_of_apart confirmed]
    simp [or_and_right, exists_or]

/-- The items that are still to come widen the slots that stand, and add others behind them. -/
theorem merges_foldl [LawfulLaned α] (items : List α) {slots : List (Slot α)} {earlier : List α}
    (known : Knows slots earlier) :
    ∃ result, Merges (fun n range a r => r = Laned.withIndex (Laned.generalize n a) (some range))
        earlier items result ∧
      (items.foldl add slots).map Slot.item =
        slots.map (fun s => (s.joined items).item) ++ result := by
  induction items generalizing slots earlier with
  | nil => exact ⟨[], .done, by simp [Slot.joined]⟩
  | cons a items ih =>
    obtain ⟨result, merges, shape⟩ := ih (known.add a)
    rw [List.foldl_cons, shape]
    by_cases confirmed : Confirmed a
    · obtain ⟨n, lane⟩ := confirmed
      by_cases old : ∃ s ∈ slots, s.wildcard = some n.wildcard
      · refine ⟨result, .further lane ((known n.wildcard).mp old) merges, ?_⟩
        rw [add_of_old lane old, List.map_map]
        rfl
      · -- There is no lane of this wildcard before, so the range of all of them is the one that the
        -- slot comes to have when it is widened by the rest.
        have new : n.wildcard ∉ wildcards earlier := fun h => old ((known n.wildcard).mpr h)
        obtain ⟨low, high, least, greatest, joined⟩ := Slot.joined_item items n.wildcard
          (Laned.generalize n a) (isLeast_singleton (a := n.index)) isGreatest_singleton
        have all : indices (earlier ++ a :: items) n.wildcard =
            {n.index} ∪ indices items n.wildcard := by
          rw [← List.singleton_append, indices_append, indices_append, indices_of_notMem new,
            indices_of_lane lane, Set.empty_union]
        refine ⟨_ :: result, .first lane new (all ▸ least) (all ▸ greatest) rfl merges, ?_⟩
        have passed : ∀ s ∈ slots, s.joined (a :: items) = s.joined items := by
          intro s stands
          have apart : s.join a = s := Slot.join_of_ne fun m laneM same =>
            old ⟨s, stands, laneM.unique lane ▸ same⟩
          rw [Slot.joined_cons, apart]
        rw [add_of_new lane old, List.map_append, List.map_congr_left fun s stands =>
          congrArg Slot.item (passed s stands)]
        simp [Slot.ofLane, joined]
    · refine ⟨a :: result, .kept confirmed merges, ?_⟩
      have passed : ∀ s : Slot α, s.join a = s := fun s =>
        Slot.join_of_ne fun n lane => absurd ⟨n, lane⟩ confirmed
      rw [add_of_apart confirmed]
      simp [Slot.joined_cons, passed, Slot.joined_apart]

theorem merges_merge [LawfulLaned α] (items : List α) :
    Merges (fun n range a r => r = Laned.withIndex (Laned.generalize n a) (some range))
      [] items (merge items) := by
  have nothing : Knows ([] : List (Slot α)) [] := by
    intro w
    simp [wildcards]
  obtain ⟨result, merges, shape⟩ := merges_foldl items nothing
  have same : merge items = result := by
    rw [merge, shape, List.map_nil, List.nil_append]
  exact same ▸ merges

/-- Merging is what `Merges` says, as soon as `StandsFor` says what a generalized item is. -/
theorem merge_eq_iff [LawfulLaned α] {StandsFor : LaneName → Nat × Nat → α → α → Prop}
    (spec : ∀ {n range a r}, IsLane a n →
      (StandsFor n range a r ↔ r = Laned.withIndex (Laned.generalize n a) (some range)))
    {items result : List α} : merge items = result ↔ Merges StandsFor [] items result := by
  constructor
  · rintro rfl
    exact (merges_merge items).imp fun lane => (spec lane).mpr
  · intro h
    refine (merges_merge items).unique ?_ (h.imp fun lane => (spec lane).mp)
    rintro n range a r r' rfl rfl
    rfl

theorem length_merge [LawfulLaned α] (items : List α) :
    (merge items).length = items.countP (fun a => ¬ Confirmed a) + (wildcards items).ncard := by
  have nothing : wildcards ([] : List α) = ∅ := by simp [wildcards]
  have length := (merges_merge items).length_eq
  rwa [nothing, Set.sdiff_empty] at length

end

/-! ### Ports and buses -/

instance : LawfulLaned Port := ⟨fun _ _ => rfl, fun _ _ _ => rfl⟩

instance : LawfulLaned BusInterface := ⟨fun _ _ => rfl, fun _ _ _ => rfl⟩

theorem rel_starred_iff {n : LaneName} (solid : LaneName.Solid n.digits) (s t : Option Text) :
    Option.Rel (Starred n.digits) s t ↔ t = s.map n.generalize := by
  cases s <;> cases t <;> simp [LaneName.starred_iff solid]

theorem port_standsFor_iff {n : LaneName} {range : Nat × Nat} {p r : Port} (lane : IsLane p n) :
    Port.StandsFor n range p r ↔ r = Laned.withIndex (Laned.generalize n p) (some range) := by
  have stars := rel_starred_iff (LaneName.solid_of_ofText? lane.1) p.dependency
  constructor
  · intro h
    cases r
    exact (Port.mk.injEq ..).mpr ⟨h.name, h.direction, (stars _).mp h.dependency, h.index⟩
  · rintro rfl
    exact ⟨rfl, rfl, (stars _).mpr rfl, rfl⟩

theorem physical_iff {n : LaneName} {m : PortMap} {t : Text} :
    ((∀ inner, LaneName.ofText? m.physical = some inner → inner.digits = n.digits →
        t = inner.wildcard) ∧
      ((∀ inner, LaneName.ofText? m.physical = some inner → inner.digits ≠ n.digits) →
        t = m.physical)) ↔ t = (n.generalizePortMap m).physical := by
  unfold LaneName.generalizePortMap
  cases LaneName.ofText? m.physical with
  | none => simp
  | some inner =>
    by_cases same : inner.digits = n.digits
    · simp [same]
    · simp [same]

theorem portMap_standsFor_iff {n : LaneName} (solid : LaneName.Solid n.digits) {m r : PortMap} :
    PortMap.StandsFor n m r ↔ r = n.generalizePortMap m := by
  have stars := rel_starred_iff solid m.dependency
  constructor
  · intro h
    cases r
    exact (PortMap.mk.injEq ..).mpr
      ⟨physical_iff.mp ⟨h.same, h.other⟩, h.logical, h.direction, (stars _).mp h.dependency⟩
  · rintro rfl
    obtain ⟨same, other⟩ := (physical_iff (n := n) (m := m)).mpr rfl
    exact ⟨same, other, rfl, rfl, (stars _).mpr rfl⟩

theorem portMaps_standFor_iff {n : LaneName} (solid : LaneName.Solid n.digits)
    (ms rs : List PortMap) :
    List.Forall₂ (PortMap.StandsFor n) ms rs ↔ rs = ms.map n.generalizePortMap := by
  have each : PortMap.StandsFor n = fun m r => n.generalizePortMap m = r := by
    funext m r
    exact propext ((portMap_standsFor_iff solid).trans eq_comm)
  rw [each, ← List.forall₂_map_left_iff, List.forall₂_eq_eq_eq, eq_comm]

theorem bus_standsFor_iff {n : LaneName} {range : Nat × Nat} {b r : BusInterface}
    (lane : IsLane b n) :
    BusInterface.StandsFor n range b r ↔
      r = Laned.withIndex (Laned.generalize n b) (some range) := by
  have solid := LaneName.solid_of_ofText? lane.1
  have stars := rel_starred_iff solid b.dependency
  have maps := portMaps_standFor_iff solid b.portMap
  constructor
  · intro h
    cases r
    exact (BusInterface.mk.injEq ..).mpr ⟨h.name, h.busType, h.role, (stars _).mp h.dependency,
      (maps _).mp h.portMap, h.index⟩
  · rintro rfl
    exact ⟨rfl, rfl, rfl, (stars _).mpr rfl, (maps _).mpr rfl, rfl⟩

/-- Merging answers the one list in which the items that are no lanes stand as they are, the first
lane of each wildcard is replaced by what stands for all its lanes, and the others are gone: an item
for each that is no lane, and one for each wildcard. -/
theorem merge_eq_iff_merges :
    (∀ ports : List Port,
      (∀ result, merge ports = result ↔ Merges Port.StandsFor [] ports result) ∧
      (merge ports).length = ports.countP (fun p => ¬ Confirmed p) + (wildcards ports).ncard) ∧
    ∀ buses : List BusInterface,
      (∀ result, merge buses = result ↔ Merges BusInterface.StandsFor [] buses result) ∧
      (merge buses).length = buses.countP (fun b => ¬ Confirmed b) + (wildcards buses).ncard := by
  constructor
  · intro ports
    exact ⟨fun result => merge_eq_iff port_standsFor_iff, length_merge ports⟩
  · intro buses
    exact ⟨fun result => merge_eq_iff bus_standsFor_iff, length_merge buses⟩

/-- The range is one of numbers, and a name of the right form is not enough. -/
example : merge [
      (⟨"lane_9".toList, "in".toList, some "L > 9".toList, none⟩ : Port),
      ⟨"lane_10".toList, "in".toList, some "(L > 10)".toList, none⟩,
      ⟨"lane_2".toList, "in".toList, none, none⟩] =
    [⟨"lane_*".toList, "in".toList, some "L > * ".toList, some (9, 10)⟩,
      ⟨"lane_2".toList, "in".toList, none, none⟩] := by
  decide +kernel

end Lanes

end Gateware
