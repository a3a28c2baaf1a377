import Gateware.RegisterMap.Import
import Gateware.RegisterMap.Parser
import Mathlib.Data.List.Basic
import Mathlib.Data.List.Flatten

/-!
# Imports that stay pending

Which imports wait after resolution, and which of them it has warned about. A warning always
belongs to an import that is still pending, but an import field of a register at an address stays
pending, and is copied, without a warning: `reported_iff` states that everything pending has been
reported exactly when there is no such field.
-/

namespace Gateware

open Text

/-- An import that waits for resolution: a register, or a field of a register at an address. -/
structure Pending where
  group : Text
  register : Text
  field : Option Text
deriving DecidableEq

namespace Pending

def text (p : Pending) : Text :=
  p.group ++ "." ++ p.register ++ (p.field.map fun f => '.' :: f).getD []

/-- What a warning tells of a pending import; the group is not part of it. -/
def subject (p : Pending) : Text × Option Text := (p.register, p.field)

end Pending

def Register.pending (group : Text) : Register → List Pending
  | .imported r => [⟨group, r.name, none⟩]
  | .concrete r => (r.fields.filterMap Field.importName?).map fun f => ⟨group, r.name, some f⟩

def Group.pending (g : Group) : List Pending := g.registers.flatMap (Register.pending g.name)

def RegisterMap.pending (m : RegisterMap) : List Pending := m.groups.flatMap Group.pending

def RegisterMap.ImportWarning.subject? : RegisterMap.ImportWarning → Option (Text × Option Text)
  | .unknownGroup _ => none
  | .registerNotFound register _ => some (register, none)
  | .fieldNotFound field register _ => some (register, some field)

/-- A register at an address with an import among its fields. -/
def ConcreteRegister.Partial (r : ConcreteRegister) : Prop := ∃ name, Field.imported name ∈ r.fields

namespace RegisterMap

def reported (t : MapTable) : List (Text × Option Text) :=
  (resolveWarnings t).filterMap ImportWarning.subject?

def left (t : MapTable) : List Pending := (resolve t).values.flatMap RegisterMap.pending

/-- The imports that are left are those that the warnings tell of, one warning for each. -/
def AllReported (t : MapTable) : Prop := (reported t).Perm ((left t).map Pending.subject)

/-! ### The names of pending imports -/

theorem unresolved_register (group : Text) (r : Register) :
    r.unresolved group = (r.pending group).map Pending.text := by
  cases r with
  | imported r => simp [Register.unresolved, Register.pending, Pending.text]
  | concrete r => simp [Register.unresolved, Register.pending, Pending.text, Function.comp_def]

theorem unresolved_group (g : Group) : g.unresolved = g.pending.map Pending.text := by
  unfold Group.unresolved Group.pending
  rw [List.map_flatMap]
  exact congrArg (List.flatMap · g.registers) (funext (unresolved_register g.name))

theorem unresolved_eq_map_text (m : RegisterMap) : m.unresolved = m.pending.map Pending.text := by
  unfold unresolved pending
  rw [List.map_flatMap]
  exact congrArg (List.flatMap · m.groups) (funext unresolved_group)

/-! ### One register -/

def leftOf (exports : Text → Option (List ConcreteRegister)) (g : Group) (r : Register) :
    List (Text × Option Text) :=
  ((resolveRegister exports g.uses r).register.pending g.name).map Pending.subject

def reportedOf (exports : Text → Option (List ConcreteRegister)) (g : Group) (r : Register) :
    List (Text × Option Text) :=
  (resolveRegister exports g.uses r).warnings.filterMap ImportWarning.subject?

def leftField (register : Text) (f : Field) : List (Text × Option Text) :=
  (f.importName?.map fun name => (register, some name)).toList

theorem map_importName? (register : Text) (fields : List Field) :
    (fields.filterMap Field.importName?).map (fun f => (register, some f)) =
      fields.flatMap (leftField register) := by
  induction fields with
  | nil => rfl
  | cons f fields ih =>
    cases f with
    | concrete f =>
      rw [List.filterMap_cons_none rfl, List.flatMap_cons]
      exact ih
    | imported name =>
      have first : Field.importName? (.imported name) = some name := rfl
      rw [List.filterMap_cons_some first, List.map_cons, ih]
      rfl

/-- A field is reported as it is left, unless it is a field that the source has. -/
theorem selectField_reported (d : ConcreteRegister) (group : Text) (f : Field) :
    (selectField d group f).2.filterMap ImportWarning.subject? =
        leftField d.name (selectField d group f).1 ∨
      (selectField d group f).2 = [] ∧ (selectField d group f).1 ∈ d.fields := by
  cases f with
  | concrete f => exact .inl rfl
  | imported name =>
    cases found : d.fields.find? (·.name == name) with
    | none =>
      rw [selectField_missing found]
      exact .inl rfl
    | some first =>
      rw [selectField_found found]
      exact .inr ⟨rfl, List.mem_of_find?_eq_some found⟩

theorem leftField_of_not_partial {d : ConcreteRegister} (h : ¬ d.Partial) (register : Text)
    {f : Field} (hf : f ∈ d.fields) : leftField register f = [] := by
  cases f with
  | concrete f => rfl
  | imported name => exact absurd ⟨name, hf⟩ h

theorem leftOf_concrete (exports : Text → Option (List ConcreteRegister)) (g : Group)
    (r : ConcreteRegister) :
    leftOf exports g (.concrete r) = r.fields.flatMap (leftField r.name) := by
  rw [← map_importName?]
  unfold leftOf
  exact List.map_map

theorem reportedOf_replaced {exports : Text → Option (List ConcreteRegister)} {g : Group}
    {r : ImportedRegister} {group : Text} {d : ConcreteRegister}
    (h : findImport? exports g.uses r = some (group, d)) :
    reportedOf exports g (.imported r) =
      r.fields.flatMap fun f => (selectField d group f).2.filterMap ImportWarning.subject? := by
  unfold reportedOf
  rw [resolveRegister_replaced h]
  simp [splice, List.flatMap_map, List.filterMap_flatMap]

theorem leftOf_replaced {exports : Text → Option (List ConcreteRegister)} {g : Group}
    {r : ImportedRegister} {group : Text} {d : ConcreteRegister}
    (h : findImport? exports g.uses r = some (group, d)) :
    leftOf exports g (.imported r) =
      if r.fields.isEmpty then d.fields.flatMap (leftField r.name)
      else r.fields.flatMap fun f => leftField r.name (selectField d group f).1 := by
  have left : leftOf exports g (.imported r) =
      leftOf exports g (.concrete (splice r d group).1) := by
    unfold leftOf
    rw [resolveRegister_replaced h]
    rfl
  rw [left, leftOf_concrete]
  unfold splice
  split <;> simp [List.flatMap_map]

theorem reportedOf_sublist (t : MapTable) (g : Group) (r : Register) :
    (reportedOf (exported? t) g r).Sublist (leftOf (exported? t) g r) := by
  cases r with
  | concrete r => exact List.nil_sublist _
  | imported r =>
    cases source : findImport? (exported? t) g.uses r with
    | none =>
      unfold reportedOf leftOf
      rw [resolveRegister_pending source]
      exact List.Sublist.refl _
    | some origin =>
      obtain ⟨group, d⟩ := origin
      rw [reportedOf_replaced source, leftOf_replaced source, ← (of_findImport? source).1]
      split
      · rename_i none
        rw [List.isEmpty_iff.mp none]
        exact List.nil_sublist _
      · refine List.Sublist.flatMap_right _ fun f _ => ?_
        obtain same | ⟨silent, -⟩ := selectField_reported d group f
        · exact same ▸ List.Sublist.refl _
        · rw [silent]
          exact List.nil_sublist _

theorem reportedOf_eq_leftOf {t : MapTable}
    (h : ∀ m ∈ t.values, ∀ d ∈ m.concreteRegisters, ¬ d.Partial) {m : RegisterMap}
    (hm : m ∈ t.values) {g : Group} (hg : g ∈ m.groups) {r : Register} (hr : r ∈ g.registers) :
    reportedOf (exported? t) g r = leftOf (exported? t) g r := by
  have none {d : ConcreteRegister} (whole : ¬ d.Partial) (register : Text) :
      d.fields.flatMap (leftField register) = [] :=
    List.flatMap_eq_nil_iff.mpr fun f hf => leftField_of_not_partial whole register hf
  cases r with
  | concrete r =>
    have own : r ∈ m.concreteRegisters := mem_concreteRegisters.mpr ⟨g, hg, hr⟩
    rw [leftOf_concrete, none (h m hm r own)]
    rfl
  | imported r =>
    cases source : findImport? (exported? t) g.uses r with
    | none =>
      unfold reportedOf leftOf
      rw [resolveRegister_pending source]
      rfl
    | some origin =>
      obtain ⟨group, d⟩ := origin
      obtain ⟨name, m', hm', held⟩ := of_findImport? source
      have whole := h m' hm' d held
      rw [reportedOf_replaced source, leftOf_replaced source, ← name]
      split
      · rename_i empty
        rw [List.isEmpty_iff.mp empty, none whole]
        rfl
      · refine List.flatMap_congr fun f _ => ?_
        obtain same | ⟨silent, copied⟩ := selectField_reported d group f
        · exact same
        · rw [silent, leftField_of_not_partial whole d.name copied]
          rfl

/-- Nothing is reported of a register at an address, whatever it imports. -/
theorem reportedOf_ne_leftOf {exports : Text → Option (List ConcreteRegister)} {g : Group}
    {r : ConcreteRegister} (h : r.Partial) :
    reportedOf exports g (.concrete r) ≠ leftOf exports g (.concrete r) := by
  obtain ⟨name, hf⟩ := h
  have left : (r.name, some name) ∈ leftOf exports g (.concrete r) := by
    rw [leftOf_concrete]
    exact List.mem_flatMap.mpr ⟨.imported name, hf, List.mem_singleton.mpr rfl⟩
  intro same
  rw [← same] at left
  exact nomatch left

/-! ### All registers -/

theorem reported_eq (t : MapTable) :
    reported t = (t.values.flatMap RegisterMap.groups).flatMap fun g =>
      g.registers.flatMap (reportedOf (exported? t) g) := by
  have unknown (uses : List Text) :
      (uses.map ImportWarning.unknownGroup).filterMap ImportWarning.subject? = [] := by
    simp [ImportWarning.subject?]
  unfold reported resolveWarnings
  rw [List.filterMap_flatMap]
  refine List.flatMap_congr fun g _ => ?_
  unfold resolveGroup
  rw [List.filterMap_append, unknown, List.nil_append, List.flatMap_map, List.filterMap_flatMap]
  rfl

theorem left_group (exports : Text → Option (List ConcreteRegister)) (g : Group) :
    (resolveGroup exports g).1.pending.map Pending.subject =
      g.registers.flatMap (leftOf exports g) := by
  unfold resolveGroup Group.pending
  rw [List.map_flatMap, List.flatMap_map, List.flatMap_map]
  rfl

theorem left_eq (t : MapTable) :
    (left t).map Pending.subject = (t.values.flatMap RegisterMap.groups).flatMap fun g =>
      g.registers.flatMap (leftOf (exported? t) g) := by
  unfold left
  rw [values_resolve, List.flatMap_map, List.map_flatMap, List.flatMap_assoc]
  refine List.flatMap_congr fun m _ => ?_
  unfold pending resolveMap
  rw [List.map_flatMap, List.flatMap_map]
  exact List.flatMap_congr fun g _ => left_group (exported? t) g

theorem reported_sublist (t : MapTable) : (reported t).Sublist ((left t).map Pending.subject) := by
  rw [reported_eq, left_eq]
  refine List.Sublist.flatMap_right _ fun g _ => List.Sublist.flatMap_right _ fun r _ => ?_
  exact reportedOf_sublist t g r

/-- Lists of sublists have the same length only when they are the same lists. -/
theorem eq_of_flatMap_length {α β : Type} {f g : α → List β} {l : List α}
    (h : ∀ a ∈ l, (f a).Sublist (g a)) (length : (l.flatMap f).length = (l.flatMap g).length) :
    ∀ a ∈ l, f a = g a := by
  induction l with
  | nil => exact fun a ha => nomatch ha
  | cons b l ih =>
    have rest := fun a ha => h a (List.mem_cons_of_mem b ha)
    have first := (h b List.mem_cons_self).length_le
    have others := (List.Sublist.flatMap_right l rest).length_le
    rw [List.flatMap_cons, List.flatMap_cons, List.length_append, List.length_append] at length
    intro a ha
    rcases List.mem_cons.mp ha with rfl | ha
    · exact (h a List.mem_cons_self).eq_of_length (by omega)
    · exact ih rest (by omega) a ha

/-- What resolution reports is pending after it, and all that is pending is reported exactly when
no register at an address has an import among its fields. -/
theorem allReported_iff (t : MapTable) :
    (resolve t).values.flatMap unresolved = (left t).map Pending.text ∧
      (reported t).Sublist ((left t).map Pending.subject) ∧
      (AllReported t ↔ ∀ m ∈ t.values, ∀ r ∈ m.concreteRegisters, ¬ r.Partial) := by
  refine ⟨?_, reported_sublist t, ?_, ?_⟩
  · unfold left
    rw [List.map_flatMap]
    exact List.flatMap_congr fun m _ => unresolved_eq_map_text m
  · intro all m hm r hr isPartial
    have length := all.length_eq
    obtain ⟨g, hg, own⟩ := mem_concreteRegisters.mp hr
    rw [reported_eq, left_eq] at length
    -- equal lengths leave no gap anywhere, so nothing is missing at this register either
    have groups := eq_of_flatMap_length (fun g _ => List.Sublist.flatMap_right _ fun r _ =>
      reportedOf_sublist t g r) length g (List.mem_flatMap.mpr ⟨m, hm, hg⟩)
    have registers := eq_of_flatMap_length (fun r _ => reportedOf_sublist t g r)
      (congrArg List.length groups) (.concrete r) own
    exact reportedOf_ne_leftOf isPartial registers
  · intro whole
    unfold AllReported
    rw [reported_eq, left_eq]
    refine List.Perm.of_eq (List.flatMap_congr fun g hg => List.flatMap_congr fun r hr => ?_)
    obtain ⟨m, hm, inside⟩ := List.mem_flatMap.mp hg
    exact reportedOf_eq_leftOf whole hm inside hr

def partialDescription : List Text :=
  ["TITLE", "Timer", "timer", "ENDTITLE", "REG", "0x0", "CTRL", "ENDREG", "FIELD", "MODE",
    "ENDFIELD"]

/-- The field is pending after resolution, and nothing is reported. -/
theorem not_allReported_partialDescription :
    let t : MapTable := Table.empty.insert "timer" (parse partialDescription).1
    (parse partialDescription).2 = [] ∧ resolveWarnings t = [] ∧
      (resolve t).values.flatMap unresolved = [String.toList "timer.CTRL.MODE"] ∧
      ¬ AllReported t := by
  intro t
  have silent : resolveWarnings t = [] := by decide +kernel
  have pending : ((left t).map Pending.subject).length = 1 := by decide +kernel
  refine ⟨by decide +kernel, silent, by decide +kernel, ?_⟩
  intro all
  have length := all.length_eq
  rw [pending] at length
  unfold reported at length
  rw [silent] at length
  exact nomatch length

end RegisterMap

end Gateware
