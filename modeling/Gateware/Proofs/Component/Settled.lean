import Gateware.Proofs.Component.LaneName

/-!
# Merging leaves nothing to merge

The name of an item that stands for lanes has a star where the digits of a lane name are, and what
no lane was stays as it is. So no item of a merged list is a lane, and to merge it again changes
nothing (`merge_settles`).
-/

namespace Gateware

open Text

namespace LaneName

/-- A wildcard is no lane name: behind the polarity that ends it stands the star, and no digit. -/
theorem ofText?_wildcard {name : Text} {n : LaneName} (h : ofText? name = some n) :
    ofText? n.wildcard = none := by
  obtain ⟨s, told, -, shape⟩ := split_of_ofText? h
  have wildcard : n.wildcard = s.wildcard := congrArg LaneName.wildcard shape
  rw [wildcard, Option.eq_none_iff_forall_ne_some]
  intro m read
  obtain ⟨s', told', named, -⟩ := split_of_ofText? read
  have star : (s.stem ++ ['*']).getLast? = some '*' := List.getLast?_concat
  have cut : cutPolarity s.wildcard = (s.stem ++ ['*'], s.polarity) :=
    cutPolarity_append star (by decide) told.polarity
  obtain ⟨c, last, digit⟩ := told'.exists_last
  rw [← named, told'.cutPolarity_eq] at cut
  rw [(Prod.mk.inj cut).1, star] at last
  obtain rfl := Option.some.inj last
  exact absurd digit (by decide)

end LaneName

namespace Lanes

section

variable {α : Type} [Laned α] {StandsFor : LaneName → Nat × Nat → α → α → Prop}
  {earlier items result : List α}

/-- What stands for lanes is none itself, under the name that it has. -/
theorem Merges.not_confirmed
    (named : ∀ {n range a r}, StandsFor n range a r → Laned.name r = n.wildcard)
    (h : Merges StandsFor earlier items result) : ∀ r ∈ result, ¬ Confirmed r := by
  induction h with
  | done => exact nofun
  | kept apart _ ih => exact List.forall_mem_cons.mpr ⟨apart, ih⟩
  | first lane _ _ _ stands _ ih =>
    refine List.forall_mem_cons.mpr ⟨?_, ih⟩
    rintro ⟨m, read, -⟩
    rw [named stands, LaneName.ofText?_wildcard lane.1] at read
    cases read
  | further _ _ _ ih => exact ih

theorem Merges.refl (apart : ∀ a ∈ items, ¬ Confirmed a) (earlier : List α) :
    Merges StandsFor earlier items items := by
  induction items generalizing earlier with
  | nil => exact .done
  | cons a items ih =>
    obtain ⟨first, rest⟩ := List.forall_mem_cons.mp apart
    exact .kept first (ih rest (earlier ++ [a]))

theorem merge_eq_self [LawfulLaned α] (apart : ∀ a ∈ items, ¬ Confirmed a) :
    merge items = items :=
  (merge_eq_iff fun _ => Iff.rfl).mpr (Merges.refl apart [])

/-- An item takes the name of the wildcard that it is generalized under. -/
theorem merge_merge [LawfulLaned α]
    (named : ∀ (n : LaneName) (a : α) range,
      Laned.name (Laned.withIndex (Laned.generalize n a) range) = n.wildcard)
    (items : List α) :
    merge (merge items) = merge items ∧ ∀ a ∈ merge items, ¬ Confirmed a := by
  have apart : ∀ a ∈ merge items, ¬ Confirmed a := by
    refine (merges_merge items).not_confirmed ?_
    rintro n range a r rfl
    exact named n a (some range)
  exact ⟨merge_eq_self apart, apart⟩

end

/-- No wildcard is a lane name, whatever numbers the name had before that of its lane. No item of a
merged list of ports or buses is a lane any more, and merging it again changes nothing. -/
theorem merge_settles :
    (∀ (name : Text) (n : LaneName), LaneName.ofText? name = some n →
      LaneName.ofText? n.wildcard = none) ∧
    (∀ ports : List Port, merge (merge ports) = merge ports ∧ ∀ p ∈ merge ports, ¬ Confirmed p) ∧
    ∀ buses : List BusInterface,
      merge (merge buses) = merge buses ∧ ∀ b ∈ merge buses, ¬ Confirmed b :=
  ⟨fun _ _ => LaneName.ofText?_wildcard, merge_merge fun _ _ _ => rfl, merge_merge fun _ _ _ => rfl⟩

/-- Two lanes behind a number of another kind, and a port of one of their names that is no lane. -/
def quadPorts : List Port := [
  ⟨"quad_2_tx_0_p", "out", some "LANES > 0", none⟩,
  ⟨"quad_2_tx_1_p", "out", none, none⟩,
  ⟨"quad_2_tx_1_p", "out", some "LANES > 1 ", none⟩]

theorem merge_settles_quadPorts :
    LaneName.ofText? "quad_2_tx_0_p" = some ⟨"quad_2_tx_*_p", "0", 0⟩ ∧
      LaneName.ofText? "quad_2_tx_*_p" = none ∧
      merge quadPorts = [⟨"quad_2_tx_*_p", "out", some "LANES > * ", some (0, 1)⟩,
        ⟨"quad_2_tx_1_p", "out", none, none⟩] ∧
      merge (merge quadPorts) = merge quadPorts ∧
      ¬ Confirmed (⟨"quad_2_tx_*_p", "out", some "LANES > * ", some (0, 1)⟩ : Port) := by
  have read : LaneName.ofText? "quad_2_tx_0_p" = some ⟨"quad_2_tx_*_p", "0", 0⟩ := by decide
  have merged : merge quadPorts = [⟨"quad_2_tx_*_p", "out", some "LANES > * ", some (0, 1)⟩,
      ⟨"quad_2_tx_1_p", "out", none, none⟩] := by decide +kernel
  obtain ⟨wildcards, ports, -⟩ := merge_settles
  obtain ⟨settled, apart⟩ := ports quadPorts
  have starred : LaneName.ofText? "quad_2_tx_*_p" = none :=
    wildcards "quad_2_tx_0_p" ⟨"quad_2_tx_*_p", "0", 0⟩ read
  rw [merged] at apart
  exact ⟨read, starred, merged, settled, apart _ List.mem_cons_self⟩

end Lanes

end Gateware
