import Gateware.Proofs.Component.Transparency

/-!
# What a cache shows

What a cache answers for a path, `view`, is not changed by any component that it reads and keeps
(`view_get`). So caches that show the same keep on doing so, whatever is asked of them.
-/

namespace Gateware.ComponentCache

open FileTree

variable {c : ComponentCache} {t : FileTree} {p q : Path}

/-- What the cache answers for a path. -/
def view (c : ComponentCache) (t : FileTree) (p : Path) : Except Component.FileFailure Component :=
  (ComponentSource.cached.read c t p).2

/-- What is kept for the present time of a file comes before what the file holds. -/
theorem view_eq (c : ComponentCache) (t : FileTree) (p : Path) :
    c.view t p = match c.current? t p with
      | some e => .ok e.component
      | none => Component.ofFile t p := by
  unfold view
  rw [ComponentSource.cached_read]
  cases current : c.current? t p with
  | some e => rw [get_kept current]; rfl
  | none =>
    cases read : Component.ofFile t p with
    | error cause => rw [get_failed current read]; rfl
    | ok component => rw [get_read current read]; rfl

theorem current?_of_modified_none (h : t.modified? p = none) : c.current? t p = none := by
  unfold current?
  rw [h, Option.filter_eq_none_iff]
  intro e held
  cases e.modified <;> simp

theorem current?_of_find_eq (same : keyOf p = keyOf q) (one : t.find p = t.find q)
    (c : ComponentCache) : c.current? t p = c.current? t q := by
  unfold current?
  rw [same, show t.modified? p = t.modified? q by unfold modified?; rw [one]]

/-- The cache with a component that was read for a path. -/
def keep (c : ComponentCache) (t : FileTree) (path : Path) (component : Component) :
    ComponentCache :=
  ⟨c.entries.insert (keyOf path) ⟨t.modified? path, component, c.readings⟩, c.readings + 1⟩

theorem current?_keep_other (h : keyOf p ≠ keyOf q) (c : ComponentCache) (component : Component) :
    (c.keep t q component).current? t p = c.current? t p := by
  unfold current? keep
  rw [Table.get?_insert, if_neg fun same => h (Key.same_iff.mp same)]

theorem current?_keep_self {time : Timestamp} (h : t.modified? q = some time) (c : ComponentCache)
    (component : Component) :
    (c.keep t q component).current? t q = some ⟨t.modified? q, component, c.readings⟩ := by
  unfold current? keep
  rw [Table.get?_insert, if_pos (Key.same_iff.mpr rfl), h]
  simp

theorem view_get (c : ComponentCache) (t : FileTree) (q p : Path) :
    (c.get t q).1.view t p = c.view t p := by
  cases current : c.current? t q with
  | some e => rw [get_kept current]
  | none =>
    cases read : Component.ofFile t q with
    | error cause => rw [get_failed current read]
    | ok component =>
      rw [get_read current read]
      change (c.keep t q component).view t p = _
      rw [view_eq, view_eq]
      by_cases same : keyOf p = keyOf q
      · cases modified : t.modified? p with
        | none => rw [current?_of_modified_none modified, current?_of_modified_none modified]
        | some time =>
          -- both paths lead to one file, which is the one that was read
          obtain ⟨l, text, found⟩ := modified?_eq_some_iff.mp modified
          obtain ⟨l', source, time', component', found', parsed, rfl⟩ :=
            Component.ofFile_eq_ok_iff.mp read
          have again := find_of_parts_eq (parts_eq_of_keyOf same) found found'
          have one : t.find p = t.find q := again.trans found'.symm
          have now : t.modified? q = some time' := modified?_eq_some_iff.mpr ⟨l', _, found'⟩
          have read' : Component.ofFile t p = .ok { component' with modified := some time' } :=
            Component.ofFile_eq_ok_iff.mpr ⟨l', source, time', component', again, parsed, rfl⟩
          rw [current?_of_find_eq same one, current?_of_find_eq same one, current,
            current?_keep_self now, read']
      · rw [current?_keep_other same]

/-- What a cache shows once and for all, as a source of components. -/
def shown (c : ComponentCache) (t : FileTree) : ComponentSource Unit where
  read _ _ p := ((), c.view t p)

/-- The caches answer the same for every path. -/
def SameViews (t : FileTree) (c c' : ComponentCache) : Prop := ∀ p, c.view t p = c'.view t p

theorem shown_agree (c : ComponentCache) (t : FileTree) (p : Path) :
    ComponentSource.cached.Agree (c.shown t) t t (fun c' _ => SameViews t c' c) p where
  answer h := h p
  keeps h q := by
    rw [ComponentSource.cached_read, view_get, h]

/-- Caches that show the same give the same manifest, and show the same again. -/
theorem ofFile_shown {c c' : ComponentCache} (h : SameViews t c' c) (root path : Path) :
    (Manifest.ofFile t c' root path).2 = (Manifest.read (c.shown t) t () root path).2 ∧
      SameViews t (Manifest.ofFile t c' root path).1 c :=
  @Manifest.read_agree _ _ .cached (c.shown t) _ c' () t t root path rfl (fun _ _ => rfl) rfl
    (shown_agree c t _) h

end Gateware.ComponentCache
