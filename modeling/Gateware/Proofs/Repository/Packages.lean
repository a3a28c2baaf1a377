import Gateware.Proofs.RegisterMap.Expansion
import Gateware.Proofs.RegisterMap.SmokeTest
import Gateware.Proofs.Repository.Loading
import Gateware.Repository.Generation
import Mathlib.Data.List.Basic

/-!
# Which register maps are generated

The resolution, the expansion and the writers each look for themselves at which maps are resolved.
`mapStage_generates` states that they agree: the packages, the smoke test and the count are about the
maps without pending imports, and a map with one is told and stays as it is.
-/

namespace Gateware

open Text

namespace Table

variable {α β γ : Type} [Key α]

theorem mem_keys_iff {t : Table α β} {k : α} : k ∈ t.keys ↔ ∃ v, t.get? k = some v := by
  simp only [keys, List.mem_map, get?_eq_some_iff]
  constructor
  · rintro ⟨⟨k, v⟩, mem, rfl⟩
    exact ⟨v, mem⟩
  · rintro ⟨v, mem⟩
    exact ⟨(k, v), mem, rfl⟩

/-- A fold whose steps add no key but one of their own adds no others. -/
theorem mem_keys_foldl {σ : Type} {step : Table α β → σ → Table α β} {key : σ → α}
    (only : ∀ (t : Table α β) (a : σ) {k : α}, k ∈ (step t a).keys → k = key a ∨ k ∈ t.keys)
    {l : List σ} {t : Table α β} {k : α} (h : k ∈ (l.foldl step t).keys) :
    k ∈ t.keys ∨ k ∈ l.map key := by
  induction l generalizing t with
  | nil => exact .inl h
  | cons a l ih =>
    rcases ih h with before | later
    · rcases only t a before with rfl | old
      · exact .inr List.mem_cons_self
      · exact .inl old
    · exact .inr (List.mem_cons_of_mem (key a) later)

theorem keys_filter_mapValues {f : α → β → γ} {p : α → γ → Bool} {q : α → β → Bool}
    (h : ∀ k v, p k (f k v) = q k v) (t : Table α β) :
    ((t.mapValues f).filter p).keys = (t.filter q).keys := by
  unfold keys filter mapValues
  simp only [List.filter_map, List.map_map, Function.comp_def, h]

theorem filter_entries_of_look {k : α} {v : β} {l : List (α × β)}
    (sorted : l.Pairwise fun a b => Key.lt a.1 b.1 = true) (h : look k l = some v) :
    (l.filter fun e => Key.same e.1 k) = [(k, v)] := by
  induction l with
  | nil => cases h
  | cons e l ih =>
    obtain ⟨first, rest⟩ := List.pairwise_cons.mp sorted
    unfold look at h
    split at h
    · rename_i here
      obtain rfl := Key.same_iff.mp here
      cases h
      rw [List.filter_cons, if_pos here, List.filter_eq_nil_iff.mpr]
      intro later mem same
      have above := first later mem
      rw [Key.same_iff.mp same, Key.irrefl] at above
      cases above
    · rename_i other
      have apart : ¬ Key.same e.1 k = true := fun same =>
        other (Key.same_iff.mpr (Key.same_iff.mp same).symm)
      rw [List.filter_cons, if_neg apart, ih rest h]

end Table

namespace RegisterMap

/-! ### Maps that are not expanded -/

/-- The warning about one map of a table. -/
def unexpanded? (e : Text × RegisterMap) : Option ExpansionWarning :=
  match e.2.expand with
  | .ok _ => none
  | .error error => some ⟨e.1, error⟩

/-! ### The names of the files -/

def packageFile (key : Text) : Text := "adi_regmap_" ++ key ++ "_pkg.sv"

def definitionsFile (key : Text) : Text := "adi_regmap_" ++ key ++ "_definitions.svh"

def programFile : Text := "test_program.sv"

def scriptFile : Text := "test_program"

theorem packageFile_inj {a b : Text} (h : packageFile a = packageFile b) : a = b :=
  List.append_cancel_left (List.append_cancel_right h)

theorem definitionsFile_inj {a b : Text} (h : definitionsFile a = definitionsFile b) : a = b :=
  List.append_cancel_left (List.append_cancel_right h)

theorem packageFile_ne_definitionsFile (a b : Text) : packageFile a ≠ definitionsFile b := by
  intro same
  have ends := congrArg List.getLast? same
  have package : (packageFile a).getLast? = some 'v' := by
    unfold packageFile
    rw [List.getLast?_append]
    rfl
  have definitions : (definitionsFile b).getLast? = some 'h' := by
    unfold definitionsFile
    rw [List.getLast?_append]
    rfl
  rw [package, definitions] at ends
  exact absurd ends (by decide)

theorem head?_packageFile (key : Text) : (packageFile key).head? = some 'a' := rfl

theorem head?_definitionsFile (key : Text) : (definitionsFile key).head? = some 'a' := rfl

theorem mem_outputs {key : Text} {m : RegisterMap} {stamp : Stamp} {f : GeneratedFile} :
    f ∈ outputs key m stamp ↔
      f = ⟨packageFile key, packageLines key m stamp⟩ ∨
        ∃ lines, macroLines? key m stamp = some lines ∧ f = ⟨definitionsFile key, lines⟩ := by
  unfold outputs
  rw [List.mem_cons, Option.mem_toList, Option.map_eq_some_iff]
  simp only [eq_comm (b := f)]
  rfl

theorem macroLines?_isSome_iff {key : Text} {m : RegisterMap} {stamp : Stamp} :
    (∃ lines, macroLines? key m stamp = some lines) ↔ ∃ p, p ∈ m.parameters := by
  unfold macroLines?
  simp only [← KeySet.mem_toList]
  cases m.parameters.toList with
  | nil => simp
  | cons p l => simp

end RegisterMap

theorem Path.join_inj {p : Path} {a b : Text} (ha : a.head? ≠ some separator)
    (hb : b.head? ≠ some separator) (h : p.join a = p.join b) : a = b := by
  unfold join at h
  rw [if_neg ha, if_neg hb] at h
  split at h
  · exact List.append_cancel_left (Path.mk.inj h)
  · exact (List.cons.inj (List.append_cancel_left (Path.mk.inj h))).2

namespace Repository

/-- Keys are made of letters, numbers and underscores. -/
theorem not_mem_mapKey? {name key : Text} {c : Char}
    (other : (isLetter c || isNumber c || c == '_') = false) (h : mapKey? name = some key) :
    c ∉ key := by
  intro found
  have signs := (Option.filter_eq_some_iff.mp h).2
  simp only [Bool.and_eq_true, List.all_eq_true] at signs
  exact absurd (other.symm.trans (signs.2 c found)) nofun

theorem mem_named {α : Type} {t : FileTree} {dir : Path} {f : Text → Option α} {s : α × Path} :
    s ∈ named t dir f ↔ s.2 ∈ t.filesUnder dir ∧ s.2.fileName?.bind f = some s.1 := by
  obtain ⟨a, p⟩ := s
  unfold named
  simp only [List.mem_filterMap, Option.map_eq_some_iff, Prod.mk.injEq]
  constructor
  · rintro ⟨q, under, b, told, rfl, rfl⟩
    exact ⟨under, told⟩
  · rintro ⟨under, told⟩
    exact ⟨p, under, a, told, rfl, rfl⟩

/-- Every map is read from a source under its key. -/
theorem source_of_mem_keys {r : Repository} {t : FileTree} {key : Text}
    (h : key ∈ (r.readMaps t).keys) : key ∈ (r.mapSources t).map Prod.fst :=
  (Table.mem_keys_foldl (fun _ _ _ => Table.mem_keys_place) h).resolve_left List.not_mem_nil

/-- The maps with their imports resolved, before they are expanded. -/
def resolvedMaps (r : Repository) (t : FileTree) : MapTable := RegisterMap.resolve (r.readMaps t)

theorem name_of_mem_resolvedMaps {r : Repository} {t : FileTree} {key : Text}
    (h : key ∈ (r.resolvedMaps t).keys) : ∃ name, mapKey? name = some key := by
  unfold resolvedMaps at h
  rw [RegisterMap.keys_resolve] at h
  obtain ⟨s, hs, rfl⟩ := List.mem_map.mp (source_of_mem_keys h)
  obtain ⟨-, told⟩ := mem_named.mp hs
  obtain ⟨name, -, key⟩ := Option.bind_eq_some_iff.mp told
  exact ⟨name, key⟩

/-- The keys of the maps without pending imports, in their order. -/
def generatedKeys (r : Repository) (t : FileTree) : List Text :=
  ((r.resolvedMaps t).filter fun _ m => m.pending.isEmpty).keys

theorem mem_generatedKeys {r : Repository} {t : FileTree} {key : Text} :
    key ∈ r.generatedKeys t ↔ ∃ m, (r.resolvedMaps t).get? key = some m ∧ m.pending = [] := by
  unfold generatedKeys
  simp only [Table.keys, Table.filter, List.mem_map, List.mem_filter, List.isEmpty_iff,
    Table.get?_eq_some_iff]
  constructor
  · rintro ⟨⟨key, m⟩, ⟨held, resolved⟩, rfl⟩
    exact ⟨m, held, resolved⟩
  · rintro ⟨m, held, resolved⟩
    exact ⟨(key, m), ⟨held, resolved⟩, rfl⟩

/-- The maps that the files are written for. -/
def generatedMaps (r : Repository) (t : FileTree) : MapTable :=
  (r.loadMaps t).value.filter fun _ m => m.isResolved

theorem keys_generatedMaps (r : Repository) (t : FileTree) :
    (r.generatedMaps t).keys = r.generatedKeys t := by
  unfold generatedMaps generatedKeys
  rw [value_loadMaps]
  exact Table.keys_filter_mapValues (fun _ m => RegisterMap.isResolved_settled m) _

theorem mem_generatedMaps {r : Repository} {t : FileTree} {key : Text} {m' : RegisterMap} :
    (key, m') ∈ (r.generatedMaps t).entries ↔
      ∃ m, (r.resolvedMaps t).get? key = some m ∧ m.pending = [] ∧ m' = m.settled := by
  have held : (key, m') ∈ (r.loadMaps t).value.entries ↔
      ∃ m, (r.resolvedMaps t).get? key = some m ∧ m.settled = m' := by
    rw [← Table.get?_eq_some_iff, value_loadMaps, RegisterMap.get?_expandAll_eq,
      Option.map_eq_some_iff]
    rfl
  unfold generatedMaps
  simp only [Table.filter, List.mem_filter, held]
  constructor
  · rintro ⟨⟨m, found, rfl⟩, resolved⟩
    rw [RegisterMap.isResolved_settled, List.isEmpty_iff] at resolved
    exact ⟨m, found, resolved, rfl⟩
  · rintro ⟨m, found, resolved, rfl⟩
    refine ⟨⟨m, found, rfl⟩, ?_⟩
    rw [RegisterMap.isResolved_settled, List.isEmpty_iff]
    exact resolved

theorem name_of_mem_generatedMaps {r : Repository} {t : FileTree} {key : Text}
    (h : key ∈ (r.generatedMaps t).keys) : ∃ name, mapKey? name = some key := by
  rw [keys_generatedMaps, mem_generatedKeys] at h
  obtain ⟨m, found, -⟩ := h
  exact name_of_mem_resolvedMaps (Table.mem_keys_iff.mpr ⟨m, found⟩)

theorem blank_not_mem_generatedMaps {r : Repository} {t : FileTree} {key : Text}
    (h : key ∈ (r.generatedMaps t).keys) : ' ' ∉ key := by
  obtain ⟨name, told⟩ := name_of_mem_generatedMaps h
  exact not_mem_mapKey? (by decide +kernel) told

/-! ### What is written -/

/-- A file among the packages, with its lines. -/
def packageOutput (r : Repository) (name : Text) (lines : List Text) : Output :=
  ⟨r.packageDirectory.join name, lines⟩

theorem packageOutput_inj {r : Repository} {name name' : Text} {lines lines' : List Text}
    (h : name.head? ≠ some Path.separator) (h' : name'.head? ≠ some Path.separator) :
    r.packageOutput name lines = r.packageOutput name' lines' ↔ name = name' ∧ lines = lines' := by
  unfold packageOutput
  rw [Output.mk.injEq]
  exact and_congr_left fun _ => ⟨Path.join_inj h h', congrArg _⟩

section

variable {r : Repository} {t : FileTree} {stamp : Stamp}

theorem value_mapStage (h : r.hasTestbenches t = true) :
    (r.mapStage t stamp).value =
      { counts := { registerMaps := (r.generatedMaps t).size }
        outputs := r.mapOutputs (r.loadMaps t).value stamp } := by
  unfold mapStage
  simp only [h, if_true]
  rfl

theorem mem_outputs_mapStage (h : r.hasTestbenches t = true) {o : Output} :
    o ∈ (r.mapStage t stamp).value.outputs ↔
      (∃ e ∈ (r.generatedMaps t).entries, ∃ f ∈ RegisterMap.outputs e.1 e.2 stamp,
        r.packageOutput f.name f.lines = o) ∨
      (r.generatedMaps t).keys ≠ [] ∧
        (o = r.packageOutput RegisterMap.programFile (RegisterMap.testProgram (r.generatedMaps t)) ∨
          o = r.packageOutput RegisterMap.scriptFile
            (RegisterMap.testScript (r.generatedMaps t))) := by
  have packages : (o ∈ (r.generatedMaps t).entries.flatMap fun e =>
      (RegisterMap.outputs e.1 e.2 stamp).map fun f => r.packageOutput f.name f.lines) ↔
      ∃ e ∈ (r.generatedMaps t).entries, ∃ f ∈ RegisterMap.outputs e.1 e.2 stamp,
        r.packageOutput f.name f.lines = o := by
    simp only [List.mem_flatMap, List.mem_map]
  have held : (r.generatedMaps t).keys ≠ [] ↔ (r.generatedMaps t).isEmpty = false := by
    unfold Table.keys Table.isEmpty
    rw [← Bool.not_eq_true, List.isEmpty_iff, Ne, List.map_eq_nil_iff]
  rw [value_mapStage h, held, ← packages]
  change o ∈ (if (r.generatedMaps t).isEmpty then _ else _ ++ [_, _]) ↔ _
  cases (r.generatedMaps t).isEmpty with
  | true =>
    simp only [if_true, reduceCtorEq, false_and, or_false]
    exact Iff.rfl
  | false =>
    simp only [Bool.false_eq_true, if_false, true_and, List.mem_append, List.mem_cons,
      List.not_mem_nil, or_false]
    exact Iff.rfl

/-- The file of that name is one of a generated map, or the program or script of the smoke test. -/
theorem packageOutput_mem_iff (h : r.hasTestbenches t = true) {name : Text} {lines : List Text}
    (relative : name.head? ≠ some Path.separator) :
    r.packageOutput name lines ∈ (r.mapStage t stamp).value.outputs ↔
      (∃ e ∈ (r.generatedMaps t).entries,
        name = RegisterMap.packageFile e.1 ∧ lines = RegisterMap.packageLines e.1 e.2 stamp ∨
        name = RegisterMap.definitionsFile e.1 ∧
          RegisterMap.macroLines? e.1 e.2 stamp = some lines) ∨
      r.generatedKeys t ≠ [] ∧
        (name = RegisterMap.programFile ∧ lines = RegisterMap.testProgram (r.generatedMaps t) ∨
          name = RegisterMap.scriptFile ∧ lines = RegisterMap.testScript (r.generatedMaps t)) := by
  have package (key : Text) : (RegisterMap.packageFile key).head? ≠ some Path.separator := nofun
  have definitions (key : Text) : (RegisterMap.definitionsFile key).head? ≠ some Path.separator :=
    nofun
  have own (e : Text × RegisterMap) :
      (∃ f ∈ RegisterMap.outputs e.1 e.2 stamp,
        r.packageOutput f.name f.lines = r.packageOutput name lines) ↔
      name = RegisterMap.packageFile e.1 ∧ lines = RegisterMap.packageLines e.1 e.2 stamp ∨
        name = RegisterMap.definitionsFile e.1 ∧
          RegisterMap.macroLines? e.1 e.2 stamp = some lines := by
    simp only [RegisterMap.mem_outputs]
    constructor
    · rintro ⟨f, rfl | ⟨macros, given, rfl⟩, same⟩
      · obtain ⟨rfl, rfl⟩ := (packageOutput_inj (package e.1) relative).mp same
        exact .inl ⟨rfl, rfl⟩
      · obtain ⟨rfl, rfl⟩ := (packageOutput_inj (definitions e.1) relative).mp same
        exact .inr ⟨rfl, given⟩
    · rintro (⟨rfl, rfl⟩ | ⟨rfl, given⟩)
      · exact ⟨_, .inl rfl, rfl⟩
      · exact ⟨_, .inr ⟨lines, given, rfl⟩, rfl⟩
  rw [mem_outputs_mapStage h, packageOutput_inj relative (by decide),
    packageOutput_inj relative (by decide), ← keys_generatedMaps]
  exact or_congr (exists_congr fun e => and_congr_right fun _ => own e) Iff.rfl

/-! ### What is told -/

/-- Whether a warning says that the map under the key is not expanded. -/
def tellsUnexpanded (key : Text) : RunWarning → Bool
  | .expansion w => Key.same w.key key
  | _ => false

theorem warnings_mapStage :
    (r.mapStage t stamp).warnings =
      (Loaded.fold (loadMap t) .empty (r.mapSources t)).warnings ++
        ((RegisterMap.resolveWarnings (r.readMaps t)).map .import ++
          (RegisterMap.expandWarnings (r.resolvedMaps t)).map .expansion) := by
  have value : (Loaded.fold (loadMap t) .empty (r.mapSources t)).value = r.readMaps t :=
    Loaded.value_fold _ _
  unfold mapStage loadMaps finishMaps resolvedMaps
  cases r.hasTestbenches t <;> simp [Loaded.andThen, value]

theorem tellsUnexpanded_expandWarnings {maps : MapTable} {key : Text} {m : RegisterMap}
    (h : maps.get? key = some m) :
    ((RegisterMap.expandWarnings maps).map RunWarning.expansion).filter (tellsUnexpanded key) =
      if m.pending = [] then [] else [.expansion ⟨key, ⟨m.pending.map Pending.text⟩⟩] := by
  have only : maps.entries.filter (fun e => Key.same e.1 key) = [(key, m)] :=
    Table.filter_entries_of_look maps.sorted h
  have own (e : Text × RegisterMap) :
      (RegisterMap.unexpanded? e).filter (fun w => Key.same w.key key) =
        if Key.same e.1 key then RegisterMap.unexpanded? e else none := by
    unfold RegisterMap.unexpanded?
    cases e.2.expand with
    | ok _ => simp
    | error error => rw [Option.filter_some]
  have kept : (RegisterMap.expandWarnings maps).filter (fun w => Key.same w.key key) =
      [(key, m)].filterMap RegisterMap.unexpanded? := by
    rw [← only, List.filterMap_filter]
    exact List.filter_filterMap.trans (List.filterMap_congr fun e _ => own e)
  rw [List.filter_map]
  change ((RegisterMap.expandWarnings maps).filter fun w => Key.same w.key key).map _ = _
  rw [kept]
  by_cases pending : m.pending = []
  · rw [if_pos pending, List.filterMap_cons_none]
    · rfl
    · unfold RegisterMap.unexpanded?
      rw [RegisterMap.expand_of_resolved pending]
  · rw [if_neg pending, List.filterMap_cons_some]
    · rfl
    · unfold RegisterMap.unexpanded?
      rw [RegisterMap.expand_of_pending pending]

theorem filter_warnings_mapStage (key : Text) :
    (r.mapStage t stamp).warnings.filter (tellsUnexpanded key) =
      ((RegisterMap.expandWarnings (r.resolvedMaps t)).map RunWarning.expansion).filter
        (tellsUnexpanded key) := by
  have reading : (Loaded.fold (loadMap t) .empty (r.mapSources t)).warnings.filter
      (tellsUnexpanded key) = [] := by
    rw [List.filter_eq_nil_iff]
    intro w hw
    obtain ⟨maps, s, -, told⟩ := Loaded.mem_warnings_fold hw
    obtain ⟨w', -, rfl⟩ := List.mem_map.mp told
    exact Bool.false_ne_true
  have importing : ((RegisterMap.resolveWarnings (r.readMaps t)).map RunWarning.import).filter
      (tellsUnexpanded key) = [] := by
    rw [List.filter_eq_nil_iff]
    intro w hw
    obtain ⟨w', -, rfl⟩ := List.mem_map.mp hw
    exact Bool.false_ne_true
  rw [warnings_mapStage, List.filter_append, List.filter_append, reading, importing,
    List.nil_append, List.nil_append]

/-! ### The stage of the register maps -/

/-- What the stage does with each map, by whether imports of it are pending after resolution. -/
structure Generates (r : Repository) (t : FileTree) (stage : Loaded Stage) : Prop where
  package (key : Text) :
    (∃ lines, r.packageOutput (RegisterMap.packageFile key) lines ∈ stage.value.outputs) ↔
      ∃ m, (r.resolvedMaps t).get? key = some m ∧ m.pending = []
  definitions (key : Text) :
    (∃ lines, r.packageOutput (RegisterMap.definitionsFile key) lines ∈ stage.value.outputs) ↔
      ∃ m, (r.resolvedMaps t).get? key = some m ∧ m.pending = [] ∧
        ∃ register ∈ m.concreteRegisters, ∃ p, p ∈ register.parameters
  told (key : Text) (m : RegisterMap) : (r.resolvedMaps t).get? key = some m →
    stage.warnings.filter (tellsUnexpanded key) =
      if m.pending = [] then [] else [.expansion ⟨key, ⟨m.pending.map Pending.text⟩⟩]
  kept (key : Text) (m : RegisterMap) : (r.resolvedMaps t).get? key = some m → m.pending ≠ [] →
    (r.loadMaps t).value.get? key = some m
  /-- There is a smoke test exactly when it has something to test. -/
  tested :
    (∃ lines, r.packageOutput RegisterMap.programFile lines ∈ stage.value.outputs) ∧
      (∃ lines, r.packageOutput RegisterMap.scriptFile lines ∈ stage.value.outputs) ↔
    r.generatedKeys t ≠ []
  program (lines : List Text) :
    r.packageOutput RegisterMap.programFile lines ∈ stage.value.outputs →
      RegisterMap.importedKeys lines = r.generatedKeys t ∧
      RegisterMap.declaredKeys lines = r.generatedKeys t ∧
      RegisterMap.constructedKeys lines = r.generatedKeys t
  script (lines : List Text) :
    r.packageOutput RegisterMap.scriptFile lines ∈ stage.value.outputs →
      RegisterMap.addedKeys lines = r.generatedKeys t
  counted : stage.value.counts.registerMaps = (r.generatedKeys t).length

/-- For every tree with test benches the maps that are generated, tested and counted are those
that have no pending import once the imports are resolved. -/
theorem mapStage_generates (r : Repository) (t : FileTree) (stamp : Stamp)
    (h : r.hasTestbenches t = true) : r.Generates t (r.mapStage t stamp) where
  package key := by
    simp only [packageOutput_mem_iff h (show (RegisterMap.packageFile key).head? ≠ _ from nofun)]
    constructor
    · rintro ⟨lines, ⟨⟨key', m'⟩, held, ⟨name, -⟩ | ⟨name, -⟩⟩ | ⟨-, ⟨name, -⟩ | ⟨name, -⟩⟩⟩
      · obtain rfl := RegisterMap.packageFile_inj name
        obtain ⟨m, found, resolved, -⟩ := mem_generatedMaps.mp held
        exact ⟨m, found, resolved⟩
      · exact absurd name (RegisterMap.packageFile_ne_definitionsFile _ _)
      · cases congrArg List.head? name
      · cases congrArg List.head? name
    · rintro ⟨m, found, resolved⟩
      exact ⟨_, .inl ⟨(key, m.settled), mem_generatedMaps.mpr ⟨m, found, resolved, rfl⟩,
        .inl ⟨rfl, rfl⟩⟩⟩
  definitions key := by
    simp only [packageOutput_mem_iff h (show (RegisterMap.definitionsFile key).head? ≠ _ from nofun)]
    constructor
    · rintro ⟨lines, ⟨⟨key', m'⟩, held, ⟨name, -⟩ | ⟨name, given⟩⟩ | ⟨-, ⟨name, -⟩ | ⟨name, -⟩⟩⟩
      · exact absurd name.symm (RegisterMap.packageFile_ne_definitionsFile _ _)
      · obtain rfl := RegisterMap.definitionsFile_inj name
        obtain ⟨m, found, resolved, rfl⟩ := mem_generatedMaps.mp held
        obtain ⟨p, hp⟩ := RegisterMap.macroLines?_isSome_iff.mp ⟨lines, given⟩
        obtain ⟨register, hr, hp⟩ := RegisterMap.mem_parameters_settled.mp hp
        exact ⟨m, found, resolved, register, hr, p, hp⟩
      · cases congrArg List.head? name
      · cases congrArg List.head? name
    · rintro ⟨m, found, resolved, register, hr, p, hp⟩
      obtain ⟨lines, given⟩ : ∃ lines, RegisterMap.macroLines? key m.settled stamp = some lines :=
        RegisterMap.macroLines?_isSome_iff.mpr
          ⟨p, RegisterMap.mem_parameters_settled.mpr ⟨register, hr, hp⟩⟩
      exact ⟨lines, .inl ⟨(key, m.settled), mem_generatedMaps.mpr ⟨m, found, resolved, rfl⟩,
        .inr ⟨rfl, given⟩⟩⟩
  told key m found := by
    rw [filter_warnings_mapStage]
    exact tellsUnexpanded_expandWarnings found
  kept key m found pending := by
    rw [value_loadMaps, RegisterMap.get?_expandAll_eq]
    change ((r.resolvedMaps t).get? key).map _ = _
    rw [found, Option.map_some, RegisterMap.settled_of_pending pending]
  tested := by
    constructor
    · rintro ⟨⟨lines, mem⟩, -⟩
      rcases (packageOutput_mem_iff h (by decide)).mp mem with ⟨e, -, name⟩ | ⟨held, -⟩
      · rcases name with ⟨name, -⟩ | ⟨name, -⟩ <;> cases congrArg List.head? name
      · exact held
    · intro held
      exact ⟨⟨_, (packageOutput_mem_iff h (by decide)).mpr (.inr ⟨held, .inl ⟨rfl, rfl⟩⟩)⟩,
        _, (packageOutput_mem_iff h (by decide)).mpr (.inr ⟨held, .inr ⟨rfl, rfl⟩⟩)⟩
  program lines mem := by
    rw [← keys_generatedMaps]
    rcases (packageOutput_mem_iff h (by decide)).mp mem with ⟨e, -, name⟩ | ⟨-, named⟩
    · rcases name with ⟨name, -⟩ | ⟨name, -⟩ <;> cases congrArg List.head? name
    · rcases named with ⟨-, rfl⟩ | ⟨name, -⟩
      · exact ⟨RegisterMap.importedKeys_testProgram _,
          RegisterMap.declaredKeys_testProgram fun _ => blank_not_mem_generatedMaps,
          RegisterMap.constructedKeys_testProgram fun _ => blank_not_mem_generatedMaps⟩
      · exact absurd name (by decide)
  script lines mem := by
    rw [← keys_generatedMaps]
    rcases (packageOutput_mem_iff h (by decide)).mp mem with ⟨e, -, name⟩ | ⟨-, named⟩
    · rcases name with ⟨name, -⟩ | ⟨name, -⟩ <;> cases congrArg List.head? name
    · rcases named with ⟨name, -⟩ | ⟨-, rfl⟩
      · exact absurd name (by decide)
      · exact RegisterMap.addedKeys_testScript _
  counted := by
    rw [value_mapStage h, ← keys_generatedMaps, Table.keys, List.length_map]
    rfl

end

/-- Test benches, a map, and two that import from a group of it: a register that it has, and one
that it has not. -/
def mixedTree : FileTree where
  nodes := .ofList [
    (List.map String.toList ["testbenches"], .directory),
    (List.map String.toList ["docs"], .directory),
    (List.map String.toList ["docs", "regmap"], .directory),
    (List.map String.toList ["docs", "regmap", "adi_regmap_base.txt"], .file (some
      "TITLE\nBase\nbase\nENDTITLE\nREG\n0x1\nID\nENDREG\nFIELD\n[W-1:0]\nVALUE\nRO\nENDFIELD\n")
      ⟨0, 0⟩),
    (List.map String.toList ["docs", "regmap", "adi_regmap_copy.txt"], .file (some
      "TITLE\nUSING base\nCopy\ncopy\nENDTITLE\nREG\nID\nENDREG\n") ⟨0, 0⟩),
    (List.map String.toList ["docs", "regmap", "adi_regmap_gone.txt"], .file (some
      "TITLE\nUSING base\nGone\ngone\nENDTITLE\nREG\nLOST\nENDREG\n") ⟨0, 0⟩)]

def mixedRepository : Repository := ⟨⟨"."⟩⟩

theorem mapStage_generates_mixedTree :
    mixedRepository.hasTestbenches mixedTree = true ∧
    mixedRepository.Generates mixedTree
      (mixedRepository.mapStage mixedTree ⟨"1.0", "2024-01-01", 2024⟩) ∧
    (mixedRepository.resolvedMaps mixedTree).keys =
      List.map String.toList ["base", "copy", "gone"] ∧
    mixedRepository.generatedKeys mixedTree = List.map String.toList ["base", "copy"] := by
  have benches : mixedRepository.hasTestbenches mixedTree = true := by decide +kernel
  exact ⟨benches, mapStage_generates mixedRepository mixedTree ⟨"1.0", "2024-01-01", 2024⟩ benches,
    by decide +kernel, by decide +kernel⟩

end Repository

end Gateware
