import Gateware.Sorted.Table
import Mathlib.Data.List.Perm.Basic

/-!
# Equal tables

A table is told by what it answers (`Table.ext_get?`), so insertions under two keys can be made in
either order, and what its entries under one key contribute to a list is what its answer does
(`Table.flatMap_under`).
-/

namespace Gateware.Table

variable {α β : Type} [Key α]

theorem nodup_entries (t : Table α β) : t.entries.Nodup := by
  refine t.sorted.imp ?_
  rintro a _ less rfl
  rw [Key.irrefl] at less
  cases less

theorem ext_get? {t u : Table α β} (h : ∀ k, t.get? k = u.get? k) : t = u := by
  have perm : t.entries.Perm u.entries := by
    refine (List.perm_ext_iff_of_nodup t.nodup_entries u.nodup_entries).mpr fun ⟨k, v⟩ => ?_
    rw [← get?_eq_some_iff, ← get?_eq_some_iff, h]
  have same : t.entries = u.entries := by
    refine List.Perm.eq_of_pairwise (fun a b _ _ less greater => ?_) t.sorted u.sorted perm
    rw [Key.asymm less] at greater
    cases greater
  cases t
  cases u
  cases same
  rfl

theorem insert_comm {k k' : α} (h : k ≠ k') (t : Table α β) (v v' : β) :
    (t.insert k v).insert k' v' = (t.insert k' v').insert k v := by
  refine ext_get? fun x => ?_
  simp only [get?_insert]
  by_cases first : Key.same x k = true
  · have second : ¬ Key.same x k' = true := fun other =>
      h ((Key.same_iff.mp first).symm.trans (Key.same_iff.mp other))
    rw [if_neg second, if_pos first, if_pos first]
  · rw [if_neg first, if_neg first]

/-- The entries under one key are one or none. -/
theorem flatMap_under {γ : Type} [DecidableEq α] (t : Table α β) (k : α) (f : β → List γ) :
    (t.entries.flatMap fun e => if k = e.1 then f e.2 else []) = ((t.get? k).map f).getD [] := by
  have sorted := t.sorted
  unfold get?
  generalize t.entries = l at sorted ⊢
  induction l with
  | nil => rfl
  | cons e l ih =>
    obtain ⟨above, rest⟩ := List.pairwise_cons.mp sorted
    rw [List.flatMap_cons, look]
    by_cases here : k = e.1
    · have none : ∀ e' ∈ l, (if k = e'.1 then f e'.2 else []) = [] := by
        intro e' later
        refine if_neg fun same => ?_
        have less := above e' later
        rw [← same, ← here, Key.irrefl] at less
        cases less
      rw [if_pos here, if_pos (Key.same_iff.mpr here), List.flatMap_eq_nil_iff.mpr none,
        List.append_nil]
      rfl
    · rw [if_neg here, if_neg fun same => here (Key.same_iff.mp same), ih rest]
      rfl

theorem insert_insert (t : Table α β) (k : α) (v v' : β) :
    (t.insert k v).insert k v' = t.insert k v' := by
  refine ext_get? fun x => ?_
  simp only [get?_insert]
  split <;> rfl

end Gateware.Table
