import Gateware.Library.Session
import Gateware.Proofs.FileTree.Place
import Gateware.Proofs.Library.Agreement

/-!
# Reading through the cache

As long as no path holds different texts at one time of modification, nothing that is read through
the cache differs from what is read anew (`answers_eq_directAnswers`). The invariant is `Remembers`:
every kept component is what some path of its key has held in a tree of the session.
-/

namespace Gateware

open Text

/-- No path ever holds different contents at one time of modification. -/
def Stable (trees : List FileTree) : Prop :=
  ∀ t ∈ trees, ∀ t' ∈ trees, ∀ (p : Path) l l' text text' time,
    t.find p = .ok (l, .file text time) → t'.find p = .ok (l', .file text' time) → text = text'

/-- Whether two nodes are no files with different texts at one time. -/
def Node.agrees : Node → Node → Bool
  | .file text time, .file text' time' => time != time' || text == text'
  | _, _ => true

/-- Trees with one working directory are stable when the nodes at each place agree. -/
theorem stable_of_agrees {trees : List FileTree} {here : Location}
    (origin : ∀ t ∈ trees, t.here = here)
    (agree : ∀ t ∈ trees, ∀ t' ∈ trees, ∀ e ∈ t.nodes.entries, ∀ e' ∈ t'.nodes.entries,
      e.1 = e'.1 → e.2.agrees e'.2 = true) : Stable trees := by
  intro t ht t' ht' p l l' text text' time first second
  obtain ⟨-, -, route, file⟩ := FileTree.find_file_iff.mp first
  obtain ⟨-, -, route', file'⟩ := FileTree.find_file_iff.mp second
  have same : t.start p = t'.start p := by
    unfold FileTree.start
    rw [origin t ht, origin t' ht']
  rw [same] at route
  obtain rfl := FileTree.advance_places route route'
  unfold FileTree.node? at file file'
  split at file
  · cases file
  · rename_i below
    rw [if_neg below] at file'
    have held := Table.get?_eq_some_iff.mp file
    have held' := Table.get?_eq_some_iff.mp file'
    have fits := agree t ht t' ht' _ held _ held' rfl
    simpa [Node.agrees] using fits

namespace Component

theorem ofFile_eq_ok_iff {t : FileTree} {p : Path} {c : Component} :
    ofFile t p = .ok c ↔ ∃ l source time c', t.find p = .ok (l, .file (some source) time) ∧
      parse source = .ok c' ∧ c = { c' with modified := some time } := by
  unfold ofFile FileTree.read FileTree.modified?
  constructor
  · intro h
    split at h
    · cases h
    · rename_i source read
      split at h
      · cases h
      · rename_i c' parsed
        cases h
        split at read
        · cases read
        · cases read
        · cases read
        · rename_i l text time found
          cases read
          exact ⟨l, source, time, c', found, parsed, by rw [found]⟩
  · rintro ⟨l, source, time, c', found, parsed, rfl⟩
    simp only [found, parsed]

end Component

namespace FileTree

theorem modified?_eq_some_iff {t : FileTree} {p : Path} {time : Timestamp} :
    t.modified? p = some time ↔ ∃ l text, t.find p = .ok (l, .file text time) := by
  unfold modified?
  constructor
  · intro h
    split at h
    · rename_i l text found same
      cases h
      exact ⟨l, text, same⟩
    · cases h
  · rintro ⟨l, text, found⟩
    rw [found]

end FileTree

namespace ComponentCache

/-- Every component that is kept for a time was read, from a path of its key, in one of the trees
when the file had that time. -/
def Remembers (trees : List FileTree) (c : ComponentCache) : Prop :=
  ∀ k e time, c.entries.get? k = some e → e.modified = some time →
    ∃ t ∈ trees, ∃ p, keyOf p = k ∧ t.modified? p = some time ∧
      Component.ofFile t p = .ok e.component

theorem remembers_empty (trees : List FileTree) : Remembers trees {} := by
  intro k e time held
  cases held

theorem parts_eq_of_keyOf {p q : Path} (h : keyOf p = keyOf q) : p.parts = q.parts := by
  refine Path.parts_eq_of_ofParts ?_
  cases first : Path.ofParts p.parts with
  | mk text =>
    cases second : Path.ofParts q.parts with
    | mk text' =>
      unfold keyOf at h
      rw [first, second] at h
      exact congrArg Path.mk h

/-- What is kept for the present time of a file is what the file holds. -/
theorem ofFile_of_current {trees : List FileTree} {c : ComponentCache} (stable : Stable trees)
    (h : c.Remembers trees) {t : FileTree} (ht : t ∈ trees) {q : Path} {e : CachedComponent}
    (current : c.current? t q = some e) : Component.ofFile t q = .ok e.component := by
  unfold current? at current
  rw [Option.filter_eq_some_iff, Bool.and_eq_true, beq_iff_eq] at current
  obtain ⟨held, timed, same⟩ := current
  obtain ⟨time, modified⟩ := Option.isSome_iff_exists.mp timed
  obtain ⟨t₀, ht₀, p, key, then', read⟩ := h _ e time held modified
  obtain ⟨l₀, source, time', component, before, parsed, value⟩ := Component.ofFile_eq_ok_iff.mp read
  obtain ⟨l, text, now⟩ := FileTree.modified?_eq_some_iff.mp (same.symm.trans modified)
  have sameTime : some time' = some time :=
    (FileTree.modified?_eq_some_iff.mpr ⟨l₀, _, before⟩).symm.trans then'
  cases sameTime
  -- the path that was read then leads to the file of the path that is asked for now
  have again : t.find p = .ok (l, .file text time) :=
    FileTree.find_of_parts_eq (parts_eq_of_keyOf key) before now
  have unchanged : some source = text := stable t₀ ht₀ t ht p l₀ l _ _ time before again
  subst unchanged
  exact Component.ofFile_eq_ok_iff.mpr ⟨l, source, time, component, now, parsed, value⟩

/-! ### One answer -/

theorem read_cached {trees : List FileTree} {c : ComponentCache} (stable : Stable trees)
    (h : c.Remembers trees) {t : FileTree} (ht : t ∈ trees) (q : Path) :
    (ComponentSource.cached.read c t q).2 = Component.ofFile t q ∧
      (ComponentSource.cached.read c t q).1.Remembers trees := by
  rw [ComponentSource.cached_read]
  cases current : c.current? t q with
  | some e =>
    rw [get_kept current]
    exact ⟨(ofFile_of_current stable h ht current).symm, h⟩
  | none =>
    cases read : Component.ofFile t q with
    | error cause =>
      rw [get_failed current read]
      exact ⟨rfl, h⟩
    | ok component =>
      rw [get_read current read]
      refine ⟨rfl, fun k e time held modified => ?_⟩
      rw [Table.get?_insert] at held
      split at held
      · rename_i same
        cases held
        exact ⟨t, ht, q, (Key.same_iff.mp same).symm, modified, read⟩
      · exact h k e time held modified

theorem invalidate_remembers {trees : List FileTree} {c : ComponentCache} (h : c.Remembers trees)
    (q : Path) : (c.invalidate q).Remembers trees := by
  intro k e time held modified
  unfold invalidate at held
  rw [Table.get?_erase] at held
  split at held
  · cases held
  · exact h k e time held modified

end ComponentCache

/-! ### A library -/

namespace Manifest

theorem cached_agree {trees : List FileTree} (stable : Stable trees) {t : FileTree} (ht : t ∈ trees)
    (p : Path) : ComponentSource.cached.Agree .direct t t (fun c _ => c.Remembers trees) p :=
  ⟨fun h => (ComponentCache.read_cached stable h ht p).1,
    fun h => (ComponentCache.read_cached stable h ht p).2⟩

theorem ofFile_cached {trees : List FileTree} {c : ComponentCache} (stable : Stable trees)
    (h : c.Remembers trees) {t : FileTree} (ht : t ∈ trees) (root path : Path) :
    (ofFile t c root path).2 = ofFileDirect t root path ∧
      (ofFile t c root path).1.Remembers trees :=
  @read_agree _ _ _ _ _ c () t t root path rfl (fun _ _ => rfl) rfl (cached_agree stable ht _) h

end Manifest

namespace LibrarySession

open ComponentCache

theorem answer_remembers {trees : List FileTree} {c : ComponentCache} (stable : Stable trees)
    (h : c.Remembers trees) {t : FileTree} (ht : t ∈ trees) (e : Event) :
    (answer t c e).2 = directAnswer t e ∧ (answer t c e).1.Remembers trees := by
  cases e with
  | component path =>
    obtain ⟨same, keeps⟩ := read_cached stable h ht path
    exact ⟨congrArg Answer.component same, keeps⟩
  | library root path =>
    obtain ⟨same, keeps⟩ := Manifest.ofFile_cached stable h ht root path
    exact ⟨congrArg Answer.library same, keeps⟩
  | forget path => exact ⟨rfl, invalidate_remembers h path⟩
  | write path text time => exact ⟨rfl, h⟩
  | makeDirectory path => exact ⟨rfl, h⟩
  | remove path => exact ⟨rfl, h⟩

theorem head_mem_trees (t : FileTree) (events : List Event) : t ∈ trees t events := by
  cases events <;> exact List.mem_cons_self

theorem answers_remembers {all : List FileTree} (stable : Stable all) {t : FileTree}
    {c : ComponentCache} {events : List Event} (inside : trees t events ⊆ all)
    (h : c.Remembers all) : answers t c events = directAnswers t events := by
  induction events generalizing t c with
  | nil => rfl
  | cons e events ih =>
    have here : t ∈ all := inside (head_mem_trees t (e :: events))
    obtain ⟨same, keeps⟩ := answer_remembers stable h here e
    have later : trees (change t e) events ⊆ all :=
      fun _ ht => inside (List.mem_cons_of_mem t ht)
    change (answer t c e).2 :: answers (change t e) (answer t c e).1 events = _
    rw [same, ih later keeps]
    rfl

/-- In a session from an empty cache, the cache gives the answers of reading anew; and a reading
that fails changes no cache. -/
theorem answers_eq_directAnswers (t : FileTree) (events : List Event)
    (h : Stable (trees t events)) :
    answers t {} events = directAnswers t events ∧
      ∀ (c : ComponentCache) (t' : FileTree) (p : Path) (cause : Component.FileFailure),
        (c.get t' p).2 = .error cause → (c.get t' p).1 = c :=
  ⟨answers_remembers h (List.Subset.refl _) (remembers_empty _), fun _ _ _ _ => get_of_error⟩

def componentPath : Path := ⟨"library/core/component.xml"⟩

def spelled : Path := ⟨"library//core/./component.xml"⟩

def emptyComponent : Text := "<c xmlns:spirit='' xmlns:xilinx='' xmlns:xsi=''/>"

/-- A core whose component is spoilt, removed and restored. -/
def coreEvents : List Event := [
  .makeDirectory ⟨"library/core"⟩,
  .write ⟨"library/core/core_ip.tcl".toList⟩ "adi_ip_files core core.v\n".toList ⟨10, 0⟩,
  .write ⟨"library/core/core.v".toList⟩ "module core();\nendmodule\n".toList ⟨10, 0⟩,
  .write componentPath emptyComponent ⟨10, 0⟩, .component componentPath,
  .library ⟨[]⟩ ⟨"library/core/core_ip.tcl".toList⟩,
  .write componentPath ['<'] ⟨20, 0⟩, .component componentPath,
  .library ⟨[]⟩ ⟨"library/core/core_ip.tcl".toList⟩,
  .remove componentPath, .component componentPath,
  .write componentPath emptyComponent ⟨10, 0⟩, .component spelled,
  .forget componentPath, .component componentPath]

/-- The tree in which the component is restored. -/
def restored : FileTree := (coreEvents.take 12).foldl change {}

theorem answers_eq_directAnswers_coreEvents :
    Stable (trees {} coreEvents) ∧ answers {} {} coreEvents = directAnswers {} coreEvents ∧
      (answers {} {} coreEvents)[12]? = some (.component (Component.ofFile restored spelled)) ∧
      (restored.read spelled).toOption = some emptyComponent := by
  have stable : Stable (trees {} coreEvents) :=
    @stable_of_agrees _ [] (by decide +kernel) (by decide +kernel)
  have held : (restored.read spelled).toOption = some emptyComponent := by decide +kernel
  obtain ⟨same, -⟩ := answers_eq_directAnswers {} coreEvents stable
  rw [same]
  exact ⟨stable, rfl, rfl, held⟩

end LibrarySession

end Gateware
