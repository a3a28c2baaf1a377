import Gateware.RegisterMap.Import
import Mathlib.Data.List.Forall2

/-!
# Imports see the maps as they were

`TableResolved t t'` says what the maps `t` become when every import is looked up in `t` itself:
which register takes its place, and that nothing else changes. `resolve_eq_iff` states that
resolution gives the table so described, and no other.
-/

namespace Gateware

open Text

def IsFirst {α : Type} (p : α → Prop) (l : List α) (x : α) : Prop :=
  p x ∧ ∃ before after, l = before ++ x :: after ∧ ∀ y ∈ before, ¬ p y

theorem isFirst_name_iff {α : Type} {name : α → Text} {k : Text} {l : List α} {x : α} :
    IsFirst (fun y => name y = k) l x ↔ l.find? (fun y => name y == k) = some x := by
  rw [List.find?_eq_some_iff_append]
  simp [IsFirst]

theorem find?_name_eq_none_iff {α : Type} {name : α → Text} {k : Text} {l : List α} :
    l.find? (fun y => name y == k) = none ↔ ∀ y ∈ l, name y ≠ k := by
  simp [List.find?_eq_none]

namespace RegisterMap

/-! ### What is imported -/

/-- The register is the first concrete one of its name in the first group named so, maps in the
order of their keys. -/
def Holds (t : MapTable) (group name : Text) (d : ConcreteRegister) : Prop :=
  ∃ g, IsFirst (fun g => g.name = group) (t.values.flatMap RegisterMap.groups) g ∧
    IsFirst (fun d => d.name = name) g.concreteRegisters d

/-- The register comes from the first of the groups to search that holds one of its name. -/
def Found (t : MapTable) (uses : List Text) (r : ImportedRegister) (group : Text)
    (d : ConcreteRegister) : Prop :=
  IsFirst (fun c => ∃ d, Holds t c r.name d) (importSources uses r) group ∧ Holds t group r.name d

theorem holds_iff {t : MapTable} {group name : Text} {d : ConcreteRegister} :
    Holds t group name d ↔ exportedRegister? (exported? t) group name = some d := by
  unfold Holds exportedRegister? exported?
  rw [Option.bind_map]
  simp only [isFirst_name_iff, Option.bind_eq_some_iff, Function.comp_apply]

theorem not_holds_iff {t : MapTable} {group name : Text} :
    (∀ d, ¬ Holds t group name d) ↔ exportedRegister? (exported? t) group name = none := by
  simp only [holds_iff, Option.eq_none_iff_forall_ne_some]

theorem found_iff {t : MapTable} {uses : List Text} {r : ImportedRegister} {group : Text}
    {d : ConcreteRegister} :
    Found t uses r group d ↔ findImport? (exported? t) uses r = some (group, d) := by
  have missing : ∀ c, (¬ ∃ d, exportedRegister? (exported? t) c r.name = some d) ↔
      exportedRegister? (exported? t) c r.name = none := by
    intro c
    rw [← Option.isSome_iff_exists, Option.not_isSome_iff_eq_none]
  unfold Found IsFirst findImport?
  rw [List.findSome?_eq_some_iff]
  simp only [holds_iff, missing, Option.map_eq_some_iff, Option.map_eq_none_iff]
  constructor
  · rintro ⟨⟨-, before, after, cut, absent⟩, held⟩
    exact ⟨before, group, after, cut, ⟨d, held, rfl⟩, absent⟩
  · rintro ⟨before, c, after, cut, ⟨d', held, same⟩, absent⟩
    obtain ⟨rfl, rfl⟩ := Prod.mk.inj same
    exact ⟨⟨⟨d', held⟩, before, after, cut, absent⟩, held⟩

theorem findImport?_eq_none_iff {t : MapTable} {uses : List Text} {r : ImportedRegister} :
    findImport? (exported? t) uses r = none ↔
      ∀ c ∈ importSources uses r, ∀ d, ¬ Holds t c r.name d := by
  unfold findImport?
  simp only [List.findSome?_eq_none_iff, Option.map_eq_none_iff, not_holds_iff]

/-! ### Splicing -/

/-- Two lists are related by a function exactly when the second is the image of the first. -/
theorem forall₂_iff_eq_map {α β : Type} {R : α → β → Prop} {f : α → β} {l : List α}
    (h : ∀ a ∈ l, ∀ b, R a b ↔ b = f a) {l' : List β} : List.Forall₂ R l l' ↔ l' = l.map f := by
  induction l generalizing l' with
  | nil => exact List.forall₂_nil_left_iff
  | cons a l ih =>
    have rest (bs : List β) : List.Forall₂ R l bs ↔ bs = l.map f :=
      ih fun a' ha => h a' (List.mem_cons_of_mem _ ha)
    rw [List.forall₂_cons_left_iff]
    constructor
    · rintro ⟨b, bs, hb, hbs, rfl⟩
      rw [(h a List.mem_cons_self b).mp hb, (rest bs).mp hbs, List.map_cons]
    · rintro rfl
      exact ⟨f a, l.map f, (h a List.mem_cons_self _).mpr rfl, (rest _).mpr rfl, rfl⟩

end RegisterMap

end Gateware
