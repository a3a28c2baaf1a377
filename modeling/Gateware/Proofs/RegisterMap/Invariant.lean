import Gateware.Proofs.Text.Literal
import Gateware.Proofs.Text.Numeral
import Gateware.RegisterMap.Package
import Gateware.RegisterMap.Session

/-!
# What holds of every table of maps

Whatever happens to a table of maps, its fields, registers and groups stay well formed, and a map
that has been expanded holds no repeated field. The invariant is `RegisterMap.WellFormed`: reading
establishes it (`parse_wellFormed`), and every event keeps it (`step_wellFormed`).
-/

namespace Gateware

open Text

/-! ### The invariant -/

structure ConcreteField.WellFormed (f : ConcreteField) : Prop where
  range : ∀ r, f.range = some r → r.first < r.past
  indexed : f.bits = .indexed → ∃ r, f.range = some r
  ordered : ∀ high low, f.bits = .span (.num high) (.num low) → low ≤ high
  no_slash : '/' ∉ f.name

def FieldsWellFormed (fields : List Field) : Prop := ∀ f, Field.concrete f ∈ fields → f.WellFormed

structure ConcreteRegister.WellFormed (r : ConcreteRegister) : Prop where
  range : ∀ range, r.range = some range → range.first < range.past
  parameters : ∀ f, Field.concrete f ∈ r.fields → ∀ p, p ∈ f.parameters → p ∈ r.parameters

/-- The fields of a register are well formed, also those that an import has of its own. -/
structure Register.WellFormed (r : Register) : Prop where
  fields : FieldsWellFormed r.fields
  concrete : ∀ c, r = .concrete c → c.WellFormed

structure Group.WellFormed (g : Group) : Prop where
  registers : ∀ r ∈ g.registers, r.WellFormed
  accessTypes : g.accessTypes.Nodup

structure RegisterMap.WellFormed (m : RegisterMap) : Prop where
  groups : ∀ g ∈ m.groups, g.WellFormed
  names : (m.groups.map Group.name).Nodup

/-- A map whose fields are all declared, at a fixed place. -/
def RegisterMap.Expanded (m : RegisterMap) : Prop :=
  ∀ g ∈ m.groups, ∀ r ∈ g.registers, ∀ f ∈ r.fields,
    ∃ c high low, f = .concrete c ∧ c.range = none ∧ c.bits = .span high low

namespace RegisterMap

theorem nodup_addTag {tags : List Text} (h : tags.Nodup) (tag : Text) : (addTag tags tag).Nodup := by
  unfold addTag
  split
  · exact h
  · rename_i absent
    rw [List.contains_iff_mem] at absent
    refine List.nodup_append.mpr ⟨h, by simp, ?_⟩
    rintro a ha b hb rfl
    exact absent (List.mem_singleton.mp hb ▸ ha)

theorem nodup_foldl_addTag {tags : List Text} (h : tags.Nodup) (more : List Text) :
    (more.foldl addTag tags).Nodup := by
  induction more generalizing tags with
  | nil => exact h
  | cons tag more ih => exact ih (nodup_addTag h tag)

/-! ### Reading -/

theorem readRange_nonempty {line context : Text} {r : IndexRange}
    (h : (readRange line context).1 = some r) : r.first < r.past := by
  unfold readRange at h
  split at h
  · split at h
    · cases h
    · rename_i nonempty
      cases h
      exact IndexRange.isEmpty_eq_false_iff.mp (by simpa using nonempty)
  · cases h

theorem takeRange_nonempty {context : Text} {ls : List DescriptionLine} {r : IndexRange}
    (h : (takeRange context ls).range = some r) : r.first < r.past := by
  unfold takeRange at h
  split at h
  · exact readRange_nonempty h
  · cases h

theorem readBits_ordered {spec register : Text} {high low : Nat}
    (h : (readBits spec register).1 = .span (.num high) (.num low)) : low ≤ high := by
  unfold readBits at h
  split at h
  · cases h
  simp only at h
  generalize Grammar.bound ((cut? ":" spec).getD (spec, spec)).1 = first at h
  generalize Grammar.bound ((cut? ":" spec).getD (spec, spec)).2 = second at h
  cases first with
  | expr e => cases h
  | num first =>
    cases second with
    | expr e => cases h
    | num second =>
      simp only at h
      split at h
      · rename_i inverted
        cases h
        omega
      · rename_i ordered
        cases h
        omega

theorem readConcreteField_wellFormed (register first : Text) (rest : List DescriptionLine) :
    FieldsWellFormed (readConcreteField register first rest).fields := by
  unfold readConcreteField
  split
  · exact fun f hf => nomatch hf
  rename_i spec _
  simp only
  split
  · exact fun f hf => nomatch hf
  rename_i unranged
  split
  · intro f hf
    cases List.mem_singleton.mp hf
    refine ⟨fun r => takeRange_nonempty, ?_, fun high low => readBits_ordered, ?_⟩
    · intro indexed
      cases range : (takeRange register rest).range with
      | none => exact (unranged indexed range).elim
      | some r => exact ⟨r, rfl⟩
    · exact not_mem_replace_char (by decide) _
  · exact fun f hf => nomatch hf

theorem readField_wellFormed (register : Text) (ls : List DescriptionLine) :
    FieldsWellFormed (readField register ls).fields := by
  have imports (content : List DescriptionLine) :
      FieldsWellFormed (content.map fun l => Field.imported l.content) := by
    intro f hf
    obtain ⟨l, -, same⟩ := List.mem_map.mp hf
    cases same
  unfold readField
  split
  · unfold readFieldBody
    split
    · split
      · exact readConcreteField_wellFormed register _ _
      · exact imports _
    · exact imports _
  · exact fun f hf => nomatch hf

theorem fieldsWellFormed_flatMap {α : Type} {l : List α} {g : α → List Field}
    (h : ∀ a ∈ l, FieldsWellFormed (g a)) : FieldsWellFormed (l.flatMap g) := by
  intro f hf
  obtain ⟨a, ha, hf⟩ := List.mem_flatMap.mp hf
  exact h a ha f hf

theorem readRegisterBody_range {content : List DescriptionLine} {c : ConcreteRegister}
    (h : (readRegisterBody content).1 = some (.concrete c)) :
    ∀ range, c.range = some range → range.first < range.past := by
  unfold readRegisterBody at h
  split at h
  · split at h
    · simp only at h
      split at h
      · cases h
        exact fun range => takeRange_nonempty
      · cases h
    · split at h <;> cases h
  · cases h

theorem withFields_wellFormed {r : Register} {fields : List Field} (hf : FieldsWellFormed fields)
    (hr : ∀ c, r = .concrete c → ∀ range, c.range = some range → range.first < range.past) :
    (withFields fields r).WellFormed := by
  cases r with
  | imported r => exact ⟨hf, fun c same => nomatch same⟩
  | concrete r =>
    refine ⟨hf, ?_⟩
    rintro c ⟨⟩
    exact ⟨hr r rfl, fun f hf p hp => mem_fieldParameters.mpr ⟨f, hf, hp⟩⟩

theorem readRegister_wellFormed {ls : List DescriptionLine} {r : Register}
    (h : (readRegister ls).register = some r) : r.WellFormed := by
  unfold readRegister at h
  simp only at h
  split at h
  · cases h
  split at h
  · cases h
  · rename_i body
    cases h
    refine withFields_wellFormed (fieldsWellFormed_flatMap fun b hb => ?_) fun c same => ?_
    · obtain ⟨block, -, rfl⟩ := List.mem_map.mp hb
      exact readField_wellFormed _ block
    · exact readRegisterBody_range (by rw [body, same])

theorem readGroup_wellFormed {ls : List DescriptionLine} {g : Group}
    (h : (readGroup ls).1 = some g) : g.WellFormed := by
  unfold readGroup at h
  simp only at h
  split at h
  · cases h
    refine ⟨fun r hr => ?_, nodup_foldl_addTag List.nodup_nil _⟩
    obtain ⟨block, hb, same⟩ := List.mem_filterMap.mp hr
    obtain ⟨lines, -, rfl⟩ := List.mem_map.mp hb
    exact readRegister_wellFormed same
  · cases h

theorem names_addGroup {groups : List Group} (h : (groups.map Group.name).Nodup) (g : Group) :
    ((addGroup groups g).map Group.name).Nodup := by
  unfold addGroup
  split
  · have same : (groups.map fun other => if other.name == g.name then g else other).map Group.name =
        groups.map Group.name := by
      rw [List.map_map]
      refine List.map_congr_left fun other _ => ?_
      show (if other.name == g.name then g else other).name = other.name
      split
      · rename_i named
        exact (eq_of_beq named).symm
      · rfl
    rw [same]
    exact h
  · rename_i new
    rw [List.map_append]
    refine List.nodup_append.mpr ⟨h, by simp, ?_⟩
    rintro a ha b hb rfl
    obtain ⟨other, hother, named⟩ := List.mem_map.mp ha
    refine new (List.any_eq_true.mpr ⟨other, hother, ?_⟩)
    rw [named, List.mem_singleton.mp hb]
    exact beq_self_eq_true g.name

theorem mem_addGroup {groups : List Group} {g other : Group} (h : other ∈ addGroup groups g) :
    other = g ∨ other ∈ groups := by
  unfold addGroup at h
  split at h
  · obtain ⟨old, hold, rfl⟩ := List.mem_map.mp h
    split
    · exact .inl rfl
    · exact .inr hold
  · exact (List.mem_append.mp h).symm.imp_left List.mem_singleton.mp

theorem addBlock_wellFormed {acc : List Group × List ParseWarning}
    (groups : ∀ g ∈ acc.1, g.WellFormed) (names : (acc.1.map Group.name).Nodup)
    (block : List DescriptionLine) :
    (∀ g ∈ (addBlock acc block).1, g.WellFormed) ∧ ((addBlock acc block).1.map Group.name).Nodup := by
  unfold addBlock
  split
  · exact ⟨groups, names⟩
  · rename_i g _ read
    refine ⟨fun other hother => ?_, names_addGroup names g⟩
    rcases mem_addGroup hother with rfl | old
    · exact readGroup_wellFormed (by rw [read])
    · exact groups other old

theorem foldl_addBlock_wellFormed {acc : List Group × List ParseWarning}
    (groups : ∀ g ∈ acc.1, g.WellFormed) (names : (acc.1.map Group.name).Nodup)
    (blocks : List (List DescriptionLine)) :
    (∀ g ∈ (blocks.foldl addBlock acc).1, g.WellFormed) ∧
      ((blocks.foldl addBlock acc).1.map Group.name).Nodup := by
  induction blocks generalizing acc with
  | nil => exact ⟨groups, names⟩
  | cons block blocks ih =>
    obtain ⟨groups, names⟩ := addBlock_wellFormed groups names block
    exact ih groups names

theorem parse_wellFormed (lines : List Text) : (parse lines).1.WellFormed := by
  obtain ⟨groups, names⟩ := @foldl_addBlock_wellFormed ([], []) (fun g hg => nomatch hg)
    List.nodup_nil (cutAt (· = .title) ((DescriptionLine.number 1 lines).map Prod.snd)).2
  exact ⟨groups, names⟩

/-! ### Resolution -/

theorem wellFormed_of_mem {m : RegisterMap} (h : m.WellFormed) {d : ConcreteRegister}
    (hd : d ∈ m.concreteRegisters) : (Register.concrete d).WellFormed := by
  obtain ⟨g, hg, inside⟩ := mem_concreteRegisters.mp hd
  exact (h.groups g hg).registers (.concrete d) inside

theorem splice_wellFormed {r : ImportedRegister} {d : ConcreteRegister} (group : Text)
    (hr : FieldsWellFormed r.fields) (hd : (Register.concrete d).WellFormed) :
    (Register.concrete (splice r d group).1).WellFormed := by
  have fields : FieldsWellFormed (splice r d group).1.fields := by
    unfold splice
    simp only
    split
    · exact hd.fields
    · intro f hf
      obtain ⟨selected, chosen, same⟩ := List.mem_map.mp hf
      obtain ⟨f', hf', rfl⟩ := List.mem_map.mp chosen
      obtain own | copied := selectField_mem d group f'
      · rw [same] at own
        exact hr f (own ▸ hf')
      · rw [same] at copied
        exact hd.fields f copied
  refine ⟨fields, ?_⟩
  rintro c ⟨⟩
  refine ⟨(hd.concrete d rfl).range, fun f hf p hp => ?_⟩
  exact mem_fieldParameters.mpr ⟨f, hf, hp⟩

theorem resolveRegister_wellFormed {t : MapTable} (h : ∀ m ∈ t.values, m.WellFormed)
    (uses : List Text) {r : Register} (hr : r.WellFormed) :
    (resolveRegister (exported? t) uses r).register.WellFormed := by
  cases r with
  | concrete r => exact hr
  | imported r =>
    cases source : findImport? (exported? t) uses r with
    | none =>
      rw [resolveRegister_pending source]
      exact hr
    | some origin =>
      obtain ⟨group, d⟩ := origin
      obtain ⟨-, m, hm, hd⟩ := of_findImport? source
      rw [resolveRegister_replaced source]
      exact splice_wellFormed group hr.fields (wellFormed_of_mem (h m hm) hd)

theorem resolveGroup_wellFormed {t : MapTable} (h : ∀ m ∈ t.values, m.WellFormed) {g : Group}
    (hg : g.WellFormed) : (resolveGroup (exported? t) g).1.WellFormed := by
  refine ⟨fun r hr => ?_, nodup_foldl_addTag hg.accessTypes _⟩
  obtain ⟨resolved, hresolved, rfl⟩ := List.mem_map.mp hr
  obtain ⟨r', hr', rfl⟩ := List.mem_map.mp hresolved
  exact resolveRegister_wellFormed h g.uses (hg.registers r' hr')

theorem resolve_wellFormed {t : MapTable} (h : ∀ m ∈ t.values, m.WellFormed) :
    ∀ m ∈ (resolve t).values, m.WellFormed := by
  intro m hm
  rw [values_resolve] at hm
  obtain ⟨m', hm', rfl⟩ := List.mem_map.mp hm
  have names : (m'.groups.map fun g => (resolveGroup (exported? t) g).1).map Group.name =
      m'.groups.map Group.name := List.map_map
  refine ⟨fun g hg => ?_, names ▸ (h m' hm').names⟩
  obtain ⟨g', hg', rfl⟩ := List.mem_map.mp hg
  exact resolveGroup_wellFormed h ((h m' hm').groups g' hg')

/-! ### Expansion -/

theorem fieldAt_wellFormed {f : ConcreteField} (h : f.WellFormed) (n : Nat) :
    (fieldAt f n).WellFormed := by
  refine ⟨nofun, nofun, ?_, ?_⟩
  · rintro high low ⟨⟩
    exact Nat.le_refl n
  · intro slash
    rcases mem_substituteIndex slash with name | index
    · exact h.no_slash name
    · exact not_mem_decimal (by decide) n index

/-- A field at one index names no parameter that the repeated field does not name. -/
theorem parameters_fieldAt {f : ConcreteField} {n : Nat} {p : Text}
    (h : p ∈ (fieldAt f n).parameters) : p ∈ f.parameters := by
  unfold ConcreteField.parameters at h ⊢
  rw [KeySet.mem_ofList] at h ⊢
  exact List.mem_append_right _ h

/-- What expansion makes of a field: the field itself, or one at some index. -/
theorem of_mem_expandField {f f' : Field} (h : f' ∈ expandField f) :
    f' = f ∧ (∀ c, f = .concrete c → c.WellFormed → c.range = none) ∨
      ∃ c n, f = .concrete c ∧ f' = .concrete (fieldAt c n) := by
  unfold expandField at h
  split at h
  · exact .inl ⟨List.mem_singleton.mp h, nofun⟩
  · rename_i c
    split at h
    · rename_i r given
      split at h
      · rename_i empty
        refine .inl ⟨List.mem_singleton.mp h, ?_⟩
        rintro c' ⟨⟩ whole
        rw [IndexRange.isEmpty_eq_false_iff.mpr (whole.range r given)] at empty
        cases empty
      · obtain ⟨n, -, rfl⟩ := List.mem_map.mp h
        exact .inr ⟨c, n, rfl, rfl⟩
    · rename_i given
      refine .inl ⟨List.mem_singleton.mp h, ?_⟩
      rintro c' ⟨⟩ -
      exact given

theorem expandRegister_wellFormed {r : Register} (h : r.WellFormed) :
    (expandRegister r).WellFormed := by
  cases r with
  | imported r => exact h
  | concrete r =>
    -- a field that is expanded comes from a well-formed one whose parameters include its own
    have origin (f : ConcreteField) (hf : Field.concrete f ∈ r.fields.flatMap expandField) :
        f.WellFormed ∧ ∃ c, Field.concrete c ∈ r.fields ∧ ∀ p, p ∈ f.parameters → p ∈ c.parameters := by
      obtain ⟨f', hf', expanded⟩ := List.mem_flatMap.mp hf
      obtain ⟨rfl, -⟩ | ⟨c, n, rfl, same⟩ := of_mem_expandField expanded
      · exact ⟨h.fields f hf', f, hf', fun p hp => hp⟩
      · cases same
        exact ⟨fieldAt_wellFormed (h.fields c hf') n, c, hf', fun p => parameters_fieldAt⟩
    have whole := h.concrete r rfl
    refine ⟨fun f hf => (origin f hf).1, ?_⟩
    rintro c ⟨⟩
    refine ⟨whole.range, fun f hf p hp => ?_⟩
    obtain ⟨-, c, hc, sub⟩ := origin f hf
    exact whole.parameters c hc p (sub p hp)

theorem expand_wellFormed {m m' : RegisterMap} (h : m.WellFormed) (he : m.expand = .ok m') :
    m'.WellFormed := by
  unfold expand at he
  split at he
  · cases he
    have names : (m.groups.map expandGroup).map Group.name = m.groups.map Group.name := List.map_map
    refine ⟨fun g hg => ?_, names ▸ h.names⟩
    obtain ⟨g', hg', rfl⟩ := List.mem_map.mp hg
    refine ⟨fun r hr => ?_, (h.groups g' hg').accessTypes⟩
    obtain ⟨r', hr', rfl⟩ := List.mem_map.mp hr
    exact expandRegister_wellFormed ((h.groups g' hg').registers r' hr')
  · cases he

theorem concrete_of_unresolved {group : Text} {r : Register} (h : r.unresolved group = []) :
    ∃ c, r = .concrete c ∧ ∀ f ∈ c.fields, ∃ f', f = .concrete f' := by
  cases r with
  | imported r => cases h
  | concrete r =>
    refine ⟨r, rfl, fun f hf => ?_⟩
    cases f with
    | concrete f => exact ⟨f, rfl⟩
    | imported name =>
      have none := List.filterMap_eq_nil_iff.mp (List.map_eq_nil_iff.mp h) (.imported name) hf
      cases none

/-- Every field of an expanded map is declared, and neither repeated nor indexed. -/
theorem expanded_of_expand {m m' : RegisterMap} (h : m.WellFormed) (he : m.expand = .ok m') :
    m'.Expanded := by
  unfold expand at he
  split at he
  · rename_i resolved
    cases he
    intro g hg r hr f hf
    obtain ⟨g', hg', rfl⟩ := List.mem_map.mp hg
    obtain ⟨r', hr', rfl⟩ := List.mem_map.mp hr
    obtain ⟨c, rfl, declared⟩ := concrete_of_unresolved (isResolved_iff.mp resolved g' hg' r' hr')
    obtain ⟨f', hf', expanded⟩ := List.mem_flatMap.mp hf
    obtain ⟨rfl, fixed⟩ | ⟨c', n, rfl, rfl⟩ := of_mem_expandField expanded
    · obtain ⟨c', rfl⟩ := declared f hf'
      have whole := ((h.groups g' hg').registers _ hr').fields c' hf'
      have range := fixed c' rfl whole
      cases bits : c'.bits with
      | span high low => exact ⟨c', high, low, rfl, range, bits⟩
      | indexed =>
        obtain ⟨r, given⟩ := whole.indexed bits
        rw [range] at given
        cases given
    · exact ⟨fieldAt c' n, .num n, .num n, rfl, rfl, rfl⟩
  · cases he

/-! ### Sessions -/

theorem expandAll_wellFormed {t : MapTable} (h : ∀ m ∈ t.values, m.WellFormed) :
    ∀ m ∈ (expandAll t).values, m.WellFormed := by
  intro m hm
  obtain ⟨_, m', hm', rfl⟩ := Table.mem_values_mapValues hm
  split
  · rename_i expanded result
    exact expand_wellFormed (h m' hm') result
  · exact h m' hm'

theorem expandKey_wellFormed {t : MapTable} (h : ∀ m ∈ t.values, m.WellFormed) (key : Text) :
    ∀ m ∈ (expandKey t key).values, m.WellFormed := by
  unfold expandKey
  split
  · exact h
  · rename_i m' present
    split
    · rename_i expanded result
      intro m hm
      rcases Table.mem_values_insert hm with rfl | old
      · exact expand_wellFormed (h m' (Table.mem_values_of_get? present)) result
      · exact h m old
    · exact h

theorem step_wellFormed {t : MapTable} (h : ∀ m ∈ t.values, m.WellFormed) (e : Event) :
    ∀ m ∈ (step t e).values, m.WellFormed := by
  cases e with
  | describe key lines =>
    intro m hm
    rcases Table.mem_values_insert hm with rfl | old
    · exact parse_wellFormed lines
    · exact h m old
  | remove key => exact fun m hm => h m (Table.mem_values_erase hm)
  | own key page =>
    intro m hm
    obtain ⟨_, m', hm', rfl⟩ := Table.mem_values_mapValues hm
    split
    · exact ⟨(h m' hm').groups, (h m' hm').names⟩
    · exact h m' hm'
  | resolve => exact resolve_wellFormed h
  | expandAll => exact expandAll_wellFormed h
  | expand key => exact expandKey_wellFormed h key

theorem run_append (t : MapTable) (events : List Event) (e : Event) :
    run t (events ++ [e]) = step (run t events) e := by
  unfold run
  rw [List.foldl_append]
  rfl

theorem get?_expandKey {t : MapTable} {key : Text} {m m' : RegisterMap}
    (h : t.get? key = some m) (he : m.expand = .ok m') :
    (expandKey t key).get? key = some m' := by
  unfold expandKey
  simp only [h, he]
  rw [Table.get?_insert, if_pos (Key.same_iff.mpr rfl)]

theorem get?_expandAll {t : MapTable} {key : Text} {m m' : RegisterMap}
    (h : t.get? key = some m) (he : m.expand = .ok m') :
    (expandAll t).get? key = some m' := by
  unfold expandAll
  rw [Table.get?_mapValues, h]
  simp only [Option.map_some, he]

theorem run_wellFormed {t : MapTable} (h : ∀ m ∈ t.values, m.WellFormed) (events : List Event) :
    ∀ m ∈ (run t events).values, m.WellFormed := by
  induction events generalizing t with
  | nil => exact h
  | cons e events ih => exact ih (step_wellFormed h e)

/-- After any events the maps are well formed. A map that is expanded then has declared fields
only, each a span of bits at a fixed place. -/
theorem session_invariant (events : List Event) :
    (∀ m ∈ (run .empty events).values, m.WellFormed) ∧
      ∀ key m m', (run .empty events).get? key = some m → m.expand = .ok m' →
        (run .empty (events ++ [.expand key])).get? key = some m' ∧
          (run .empty (events ++ [.expandAll])).get? key = some m' ∧ m'.Expanded ∧
            ∀ r ∈ m'.concreteRegisters, ∀ f ∈ classFields r, f.bits ≠ .indexed := by
  have whole := run_wellFormed (t := .empty) (fun m hm => nomatch hm) events
  refine ⟨whole, fun key m m' present he => ?_⟩
  have expanded := expanded_of_expand (whole m (Table.mem_values_of_get? present)) he
  rw [run_append, run_append]
  refine ⟨get?_expandKey present he, get?_expandAll present he, expanded, ?_⟩
  intro r hr f hf
  obtain ⟨g, hg, own⟩ := mem_concreteRegisters.mp hr
  obtain ⟨f', hf', declared⟩ := List.mem_filterMap.mp (List.mem_filter.mp hf).1
  obtain ⟨c, high, low, rfl, -, bits⟩ := expanded g hg (.concrete r) own f' hf'
  cases declared
  rw [bits]
  exact nofun

/-- A map with a flag for each of two ports, and one that imports it before the flags are
expanded. -/
def portEvents : List Event := [
  .describe "ports" ["TITLE", "Ports", "ports", "ENDTITLE", "REG", "0x10", "IRQ", "ENDREG",
    "FIELD", "[n] 0x0", "WHERE n IS FROM 0 TO 2", "IRQn", "RW1C-V", "ENDFIELD"],
  .describe "timer" ["TITLE", "USING ports", "Timer", "timer", "ENDTITLE", "REG", "IRQ", "ENDREG"],
  .own "ports" "index", .resolve, .expand "ports"]

def portFlag : ConcreteField :=
  ⟨"IRQn", .indexed, some (.hex 0), ⟨.rw1c, true⟩, [], some ⟨0, 2⟩⟩

def timerMap : RegisterMap where
  groups := [⟨"Timer", "timer", ["ports"],
    [.concrete ⟨"IRQ", 16, 0, [], [.concrete portFlag], none, .empty⟩], ["V", "RW1C"]⟩]
  modified := none
  owners := .empty

theorem session_invariant_portEvents :
    (run .empty portEvents).get? "timer" = some timerMap ∧
      ∃ m, timerMap.expand = .ok m ∧ m.Expanded ∧
        (run .empty (portEvents ++ [.expand "timer"])).get? "timer" = some m ∧
          (m.concreteRegisters.flatMap classFields).map ConcreteField.name =
            List.map String.toList ["IRQ0", "IRQ1"] := by
  have held : (run .empty portEvents).get? "timer" = some timerMap := by decide +kernel
  have expanded : timerMap.expand = .ok { timerMap with groups := timerMap.groups.map expandGroup } :=
    if_pos (by decide +kernel)
  obtain ⟨after, -, whole, -⟩ := (session_invariant portEvents).2 "timer" timerMap _ held expanded
  exact ⟨held, _, expanded, whole, after, by decide +kernel⟩

end RegisterMap

end Gateware
