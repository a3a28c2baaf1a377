import Gateware.Text.Basic

/-!
# Matches of a matcher that does not look back

Such a matcher cuts a text at the first place where it matches, and again in what follows its match.
`substitute_first` is the equation of one such cut, `exists_first` finds it, and
`findAll_eq_nil_iff` says when there is none.
-/

namespace Gateware.Text

variable {α : Type}

/-- A matcher that does not look back reads the text from where it is to go on. -/
theorem scan_drop (m : Text → Option (α × Text)) (prev : Option Char) (n : Nat) (s : Text) :
    scan (fun _ t => m t) prev n s = scan (fun _ t => m t) none 0 (s.drop n) := by
  induction s generalizing prev n with
  | nil => cases n <;> rfl
  | cons c s ih =>
    cases n with
    | zero => rfl
    | succ n => exact ih (some c) n

/-- What follows a match is what remains after something was taken. -/
def Consumes (m : Text → Option (α × Text)) : Prop :=
  ∀ {s a r}, m s = some (a, r) → ∃ taken, taken ≠ [] ∧ s = taken ++ r

theorem scan_match {m : Text → Option (α × Text)} (consumes : Consumes m) {s r : Text} {a : α}
    (found : m s = some (a, r)) :
    scan (fun _ t => m t) none 0 s = .inr a :: scan (fun _ t => m t) none 0 r := by
  obtain ⟨taken, nonempty, rfl⟩ := consumes found
  obtain ⟨c, rest, rfl⟩ := List.exists_cons_of_ne_nil nonempty
  have skipped : (rest ++ r).length - r.length = rest.length := by simp
  rw [List.cons_append] at found ⊢
  rw [scan, found]
  simp only [skipped]
  rw [scan_drop m, List.drop_left]

theorem scan_skip {m : Text → Option (α × Text)} {c : Char} {s : Text} (miss : m (c :: s) = none) :
    scan (fun _ t => m t) none 0 (c :: s) = .inl c :: scan (fun _ t => m t) none 0 s := by
  rw [scan, miss]
  simp only
  rw [scan_drop m, List.drop_zero]

/-- The characters before the first match stay apart. -/
theorem scan_miss {m : Text → Option (α × Text)} {b s : Text}
    (miss : ∀ u, u ≠ [] → u <:+ b → m (u ++ s) = none) :
    scan (fun _ t => m t) none 0 (b ++ s) = b.map .inl ++ scan (fun _ t => m t) none 0 s := by
  induction b with
  | nil => rfl
  | cons c b ih =>
    have here : m (c :: (b ++ s)) = none := miss (c :: b) (List.cons_ne_nil c b) List.suffix_rfl
    have later := ih fun u nonempty h => miss u nonempty (h.trans (List.suffix_cons c b))
    rw [List.cons_append, scan_skip here, later]
    rfl

theorem substitute_append {m : Text → Option (Text × Text)} {b s : Text}
    (miss : ∀ u, u ≠ [] → u <:+ b → m (u ++ s) = none) :
    substitute (fun _ t => m t) (b ++ s) = b ++ substitute (fun _ t => m t) s := by
  unfold substitute
  rw [scan_miss miss]
  simp [List.flatMap_map]

theorem substitute_first {m : Text → Option (Text × Text)} (consumes : Consumes m)
    {b s t r : Text} (miss : ∀ u, u ≠ [] → u <:+ b → m (u ++ s) = none)
    (found : m s = some (t, r)) :
    substitute (fun _ t => m t) (b ++ s) = b ++ t ++ substitute (fun _ t => m t) r := by
  unfold substitute
  rw [scan_miss miss, scan_match consumes found]
  simp [List.flatMap_map]

theorem substitute_eq_self {m : Text → Option (Text × Text)} {s : Text}
    (miss : ∀ u, u ≠ [] → u <:+ s → m u = none) : substitute (fun _ t => m t) s = s := by
  have only := scan_miss (m := m) (b := s) (s := []) (by simpa using miss)
  unfold substitute
  rw [← List.append_nil s, only]
  simp [List.flatMap_map, scan]

/-- When a matcher matches somewhere, there is a first place where it does. -/
theorem exists_first {m : Text → Option α} {s : Text} (h : ∃ u, u <:+ s ∧ (m u).isSome) :
    ∃ b u, s = b ++ u ∧ (m u).isSome ∧ ∀ v, v ≠ [] → v <:+ b → m (v ++ u) = none := by
  induction s with
  | nil =>
    obtain ⟨u, last, found⟩ := h
    obtain rfl := List.suffix_nil.mp last
    exact ⟨[], [], rfl, found, fun v nonempty h => absurd (List.suffix_nil.mp h) nonempty⟩
  | cons c s ih =>
    cases here : m (c :: s) with
    | some e =>
      exact ⟨[], c :: s, rfl, by simp [here], fun v nonempty h =>
        absurd (List.suffix_nil.mp h) nonempty⟩
    | none =>
      have later : ∃ u, u <:+ s ∧ (m u).isSome := by
        obtain ⟨u, place, found⟩ := h
        rcases List.suffix_cons_iff.mp place with rfl | place
        · simp [here] at found
        · exact ⟨u, place, found⟩
      obtain ⟨b, u, rfl, found, first⟩ := ih later
      refine ⟨c :: b, u, rfl, found, ?_⟩
      intro v nonempty place
      rcases List.suffix_cons_iff.mp place with rfl | place
      · exact here
      · exact first v nonempty place

theorem head?_findAll {m : Option Char → Text → Option (α × Text)} {s r : Text} {a : α}
    (nonempty : s ≠ []) (found : m none s = some (a, r)) : (findAll m s).head? = some a := by
  cases s with
  | nil => exact absurd rfl nonempty
  | cons c s => simp [findAll, scan, found]

theorem findAll_eq_nil_iff {m : Text → Option (α × Text)} (consumes : Consumes m) {s : Text} :
    findAll (fun _ t => m t) s = [] ↔ ∀ u, u <:+ s → m u = none := by
  constructor
  · intro empty u place
    rw [Option.eq_none_iff_forall_ne_some]
    intro e found
    obtain ⟨b, v, rfl, matched, first⟩ := exists_first (m := m) ⟨u, place, by simp [found]⟩
    obtain ⟨⟨a, r⟩, found⟩ := Option.isSome_iff_exists.mp matched
    unfold findAll at empty
    rw [scan_miss first, scan_match consumes found] at empty
    simp at empty
  · intro miss
    have only := scan_miss (m := m) (b := s) (s := []) (by simpa using fun u _ h => miss u h)
    unfold findAll
    rw [← List.append_nil s, only]
    simp [scan]

end Gateware.Text
