import Gateware.Repository.Loading

/-!
# Reading the sources one after another

A stage folds over the paths of its sources. Here stand what such a fold leads to and which of its
steps a warning comes from (`mem_warnings_fold`), and the table of the register maps with none of
their imports resolved.
-/

namespace Gateware

namespace Loaded

variable {α β : Type} {f : β → α → Loaded β}

theorem fold_from (a : Loaded β) (l : List α) :
    l.foldl (fun b x => b.andThen (f · x)) a = a.andThen (fold f · l) := by
  induction l generalizing a with
  | nil => simp [fold, andThen]
  | cons x l ih =>
    have first (b : β) : fold f b (x :: l) = (f b x).andThen (fold f · l) := by
      unfold fold
      rw [List.foldl_cons, ih]
      simp only [andThen, List.nil_append]
      rfl
    rw [List.foldl_cons, ih]
    simp only [andThen, first, List.append_assoc]

theorem fold_cons (b : β) (x : α) (l : List α) :
    fold f b (x :: l) = (f b x).andThen (fold f · l) := by
  unfold fold
  rw [List.foldl_cons, fold_from]
  simp only [andThen, List.nil_append]
  rfl

theorem value_fold (b : β) (l : List α) :
    (fold f b l).value = l.foldl (fun b x => (f b x).value) b := by
  induction l generalizing b with
  | nil => rfl
  | cons x l ih =>
    rw [fold_cons, List.foldl_cons]
    exact ih (f b x).value

theorem mem_warnings_fold {b : β} {l : List α} {w : RunWarning} (h : w ∈ (fold f b l).warnings) :
    ∃ before, ∃ x ∈ l, w ∈ (f before x).warnings := by
  induction l generalizing b with
  | nil => cases h
  | cons x l ih =>
    rw [fold_cons] at h
    rcases List.mem_append.mp h with now | later
    · exact ⟨b, x, List.mem_cons_self, now⟩
    · obtain ⟨before, y, hy, told⟩ := ih later
      exact ⟨before, y, List.mem_cons_of_mem x hy, told⟩

theorem mem_warnings_fold_of {b : β} {l : List α} {x : α} {w : RunWarning} (h : x ∈ l)
    (told : ∀ before, w ∈ (f before x).warnings) : w ∈ (fold f b l).warnings := by
  induction l generalizing b with
  | nil => cases h
  | cons y l ih =>
    rw [fold_cons]
    rcases List.mem_cons.mp h with rfl | later
    · exact List.mem_append_left _ (told b)
    · exact List.mem_append_right _ (ih later)

end Loaded

namespace Repository

/-- The maps as their sources tell them, with their imports. -/
def readMaps (r : Repository) (t : FileTree) : MapTable :=
  (r.mapSources t).foldl (fun maps s => maps.insert s.1 (RegisterMap.ofFile t s.2).1) .empty

theorem value_loadMaps (r : Repository) (t : FileTree) :
    (r.loadMaps t).value = RegisterMap.expandAll (RegisterMap.resolve (r.readMaps t)) := by
  unfold loadMaps finishMaps readMaps
  simp only [Loaded.andThen, Loaded.value_fold]
  rfl

end Repository

end Gateware
