import Gateware.Project.Closure
import Gateware.Proofs.FileTree.Place

/-!
# What a script sources

`Sources` says without the walk through the lines which script a line names, and `targets_eq` that
the walk finds these, line by line.
-/

namespace Gateware.Closure

open Text

/-! ### Lines -/

def elseBranch : Text := "\x7d else \x7b"

/-- Line `i` of the script names `target`. A line that stands first in an else branch names nothing,
and the environment scripts are nobody's own. -/
structure Sources (s : Script) (i : Nat) (target : Text) : Prop where
  called : ∃ line word, s.lines[i]? = some line ∧ Script.commandName? line = some sourceCall ∧
    (Script.splitWords line)[1]? = some word ∧ target = Script.unquote word
  unconditional : ∀ j previous, i = j + 1 → s.lines[j]? = some previous → ¬ elseBranch <:+ previous
  own : ∀ name ∈ (Path.mk target).fileName?, name ∉ environmentScripts

def isEnvironment (target : Text) : Bool :=
  ((Path.mk target).fileName?.map environmentScripts.contains).getD false

/-- What the line at a place of the list names, when `previous` stands before the list. -/
def sourceAt? (previous : Text) (lines : List Text) (i : Nat) : Option Text :=
  lines[i]?.bind fun line =>
    (targetOf? (((previous :: lines)[i]?).getD []) line).filter (!isEnvironment ·)

theorem targetsAfter_eq (previous : Text) (lines : List Text) :
    targetsAfter previous lines = (List.range lines.length).filterMap (sourceAt? previous lines) := by
  induction lines generalizing previous with
  | nil => rfl
  | cons line rest ih =>
    -- a place in the rest is the next place in the list, and has the same line before it
    have shift : sourceAt? previous (line :: rest) ∘ Nat.succ = sourceAt? line rest := rfl
    have here : sourceAt? previous (line :: rest) 0 =
        (targetOf? previous line).filter (!isEnvironment ·) := rfl
    rw [targetsAfter, ih, List.length_cons, List.range_succ_eq_map, List.filterMap_cons, here,
      List.filterMap_map, shift]
    unfold isEnvironment
    cases (targetOf? previous line).filter _ <;> rfl

theorem targets_eq (s : Script) :
    targets s = (List.range s.lines.length).filterMap (sourceAt? [] s.lines) :=
  targetsAfter_eq [] s.lines

theorem isEnvironment_eq_false_iff {target : Text} :
    isEnvironment target = false ↔
      ∀ name ∈ (Path.mk target).fileName?, name ∉ environmentScripts := by
  unfold isEnvironment
  cases (Path.mk target).fileName? with
  | none => simp
  | some name => simp

theorem targetOf?_eq_some_iff {previous line target : Text} :
    targetOf? previous line = some target ↔
      Script.commandName? line = some sourceCall ∧ ¬ elseBranch <:+ previous ∧
        ∃ word, (Script.splitWords line)[1]? = some word ∧ target = Script.unquote word := by
  have ends : endsWith elseBranch previous = true ↔ elseBranch <:+ previous := by
    rw [endsWith_iff]
    exact ⟨fun ⟨r, h⟩ => ⟨r, h.symm⟩, fun ⟨r, h⟩ => ⟨r, h.symm⟩⟩
  by_cases call : Script.commandName? line = some sourceCall ∧ (!endsWith elseBranch previous) = true
  · rw [show targetOf? previous line = _ from if_pos call, Option.map_eq_some_iff]
    rw [Bool.not_eq_true', ← Bool.not_eq_true, ends] at call
    constructor
    · rintro ⟨word, second, value⟩
      exact ⟨call.1, call.2, word, second, value.symm⟩
    · rintro ⟨-, -, word, second, value⟩
      exact ⟨word, second, value.symm⟩
  · rw [show targetOf? previous line = none from if_neg call]
    rw [Bool.not_eq_true', ← Bool.not_eq_true, ends] at call
    constructor
    · nofun
    · rintro ⟨named, guard, -⟩
      exact absurd ⟨named, guard⟩ call

theorem sourceAt?_eq_some_iff {s : Script} {i : Nat} {target : Text} :
    sourceAt? [] s.lines i = some target ↔ Sources s i target := by
  unfold sourceAt?
  rw [Option.bind_eq_some_iff]
  constructor
  · rintro ⟨line, held, h⟩
    rw [Option.filter_eq_some_iff, Bool.not_eq_true', isEnvironment_eq_false_iff,
      targetOf?_eq_some_iff] at h
    obtain ⟨⟨call, guard, word, second, value⟩, own⟩ := h
    refine ⟨⟨line, word, held, call, second, value⟩, ?_, own⟩
    rintro j previous rfl before
    rwa [List.getElem?_cons_succ, before] at guard
  · rintro ⟨⟨line, word, held, call, second, value⟩, guard, own⟩
    refine ⟨line, held, ?_⟩
    rw [Option.filter_eq_some_iff, Bool.not_eq_true', isEnvironment_eq_false_iff,
      targetOf?_eq_some_iff]
    refine ⟨⟨call, ?_, word, second, value⟩, own⟩
    have opening : ¬ elseBranch <:+ ([] : Text) := by decide
    cases i with
    | zero => exact opening
    | succ j =>
      rw [List.getElem?_cons_succ]
      cases before : s.lines[j]? with
      | none => exact opening
      | some previous => exact guard j previous rfl before

theorem Sources.lt_length {s : Script} {i : Nat} {target : Text} (h : Sources s i target) :
    i < s.lines.length := by
  obtain ⟨line, word, held, -⟩ := h.called
  exact (List.getElem?_eq_some_iff.mp held).1

theorem mem_targets {s : Script} {target : Text} :
    target ∈ targets s ↔ ∃ i, Sources s i target := by
  rw [targets_eq, List.mem_filterMap]
  constructor
  · rintro ⟨i, -, h⟩
    exact ⟨i, sourceAt?_eq_some_iff.mp h⟩
  · rintro ⟨i, h⟩
    exact ⟨i, List.mem_range.mpr h.lt_length, sourceAt?_eq_some_iff.mpr h⟩

/-! ### Names that are computed -/

/-- A variable or a command stands in the name, apart from the token for the root. -/
def Computed (target : Text) : Prop :=
  '$' ∈ replace Vendor.rootToken [] target ∨ '[' ∈ replace Vendor.rootToken [] target

theorem isComputed_iff {target : Text} : isComputed target = true ↔ Computed target := by
  unfold isComputed Computed
  rw [List.any_eq_true]
  constructor
  · rintro ⟨c, held, h⟩
    rw [Bool.or_eq_true, beq_iff_eq, beq_iff_eq] at h
    rcases h with rfl | rfl
    · exact .inl held
    · exact .inr held
  · rintro (held | held)
    · exact ⟨_, held, rfl⟩
    · exact ⟨_, held, rfl⟩

/-! ### Files -/

theorem ofFile_eq_ok_iff {t : FileTree} {p : Path} {s : Script} :
    Script.ofFile t p = .ok s ↔
      ∃ l source time, t.find p = .ok (l, .file (some source) time) ∧ s = Script.ofText source := by
  unfold Script.ofFile FileTree.isFile FileTree.read
  cases found : t.find p with
  | error cause => simp
  | ok e =>
    obtain ⟨l, n⟩ := e
    cases n with
    | directory => simp
    | file text time =>
      cases text with
      | none => simp
      | some source =>
        constructor
        · intro h
          cases h
          exact ⟨l, source, time, rfl, rfl⟩
        · rintro ⟨l', source', time', same, rfl⟩
          cases same
          rfl

theorem mem_allTargets {t : FileTree} {p : Path} {s : Script} {target : Text}
    (read : Script.ofFile t p = .ok s) (h : target ∈ targets s) : target ∈ allTargets t := by
  obtain ⟨l, source, time, found, rfl⟩ := ofFile_eq_ok_iff.mp read
  obtain ⟨-, file⟩ := FileTree.find_eq_ok.mp found
  unfold FileTree.node? at file
  split at file
  · cases file
  · exact List.mem_flatMap.mpr ⟨_, Table.mem_values_of_get? file, h⟩

end Gateware.Closure
