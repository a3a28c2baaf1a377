/-!
# Keys

A key type has a decidable strict total order. Lists of keys are ordered like words in a
dictionary, so texts are keys, and so are lists of texts.
-/

namespace Gateware

class Key (α : Type) where
  lt : α → α → Bool
  irrefl (a : α) : lt a a = false
  trans {a b c : α} : lt a b = true → lt b c = true → lt a c = true
  connex (a b : α) : lt a b = true ∨ a = b ∨ lt b a = true

namespace Key

theorem asymm [Key α] {a b : α} (h : lt a b = true) : lt b a = false := by
  cases e : lt b a with
  | false => rfl
  | true => exact absurd (trans h e) (by simp [irrefl])

theorem eq_of_not_lt [Key α] {a b : α} (h : lt a b = false) (h' : lt b a = false) : a = b := by
  rcases connex a b with e | e | e
  · simp [h] at e
  · exact e
  · simp [h'] at e

/-- Whether two keys are the same, by their order. -/
def same [Key α] (a b : α) : Bool := !lt a b && !lt b a

theorem same_iff [Key α] {a b : α} : same a b = true ↔ a = b := by
  constructor
  · intro h
    obtain ⟨h₁, h₂⟩ := by simpa [same] using h
    exact eq_of_not_lt h₁ h₂
  · rintro rfl
    simp [same, irrefl]

/-! ### Characters and lists -/

instance : Key Char where
  lt a b := decide (a.val < b.val)
  irrefl a := by simp
  trans h h' := by
    simp only [decide_eq_true_eq] at *
    exact UInt32.lt_trans h h'
  connex a b := by
    simp only [decide_eq_true_eq]
    by_cases h : a.val < b.val
    · exact .inl h
    · by_cases h' : b.val < a.val
      · exact .inr (.inr h')
      · exact .inr (.inl (Char.ext (UInt32.le_antisymm (UInt32.not_lt.1 h') (UInt32.not_lt.1 h))))

/-- Dictionary order: the first difference decides, and a list comes before its extensions. -/
def ltList [Key α] : List α → List α → Bool
  | _, [] => false
  | [], _ :: _ => true
  | a :: s, b :: t => lt a b || (!lt b a && ltList s t)

theorem ltList_cons [Key α] {a b : α} {s t : List α} :
    ltList (a :: s) (b :: t) = true ↔ lt a b = true ∨ a = b ∧ ltList s t = true := by
  simp only [ltList, Bool.or_eq_true, Bool.and_eq_true, Bool.not_eq_true']
  constructor
  · rintro (h | ⟨h, h'⟩)
    · exact .inl h
    · rcases connex a b with e | e | e
      · exact .inl e
      · exact .inr ⟨e, h'⟩
      · simp [h] at e
  · rintro (h | ⟨rfl, h⟩)
    · exact .inl h
    · exact .inr ⟨irrefl a, h⟩

theorem ltList_irrefl [Key α] (s : List α) : ltList s s = false := by
  induction s with
  | nil => rfl
  | cons a s ih => simp [ltList, irrefl, ih]

theorem ltList_trans [Key α] {s t u : List α} (h : ltList s t = true) (h' : ltList t u = true) :
    ltList s u = true := by
  induction s generalizing t u with
  | nil => cases t <;> cases u <;> simp_all [ltList]
  | cons a s ih =>
    match t, u with
    | [], _ => simp [ltList] at h
    | _ :: _, [] => simp [ltList] at h'
    | b :: t, c :: u =>
      rw [ltList_cons] at *
      rcases h with h | ⟨rfl, h⟩ <;> rcases h' with h' | ⟨rfl, h'⟩
      · exact .inl (trans h h')
      · exact .inl h
      · exact .inl h'
      · exact .inr ⟨rfl, ih h h'⟩

theorem ltList_connex [Key α] (s t : List α) :
    ltList s t = true ∨ s = t ∨ ltList t s = true := by
  induction s generalizing t with
  | nil => cases t <;> simp [ltList]
  | cons a s ih =>
    match t with
    | [] => simp [ltList]
    | b :: t =>
      simp only [ltList_cons]
      rcases connex a b with h | rfl | h
      · exact .inl (.inl h)
      · rcases ih t with h | rfl | h
        · exact .inl (.inr ⟨rfl, h⟩)
        · exact .inr (.inl rfl)
        · exact .inr (.inr (.inr ⟨rfl, h⟩))
      · exact .inr (.inr (.inl h))

instance [Key α] : Key (List α) := ⟨ltList, ltList_irrefl, ltList_trans, ltList_connex⟩

end Key

end Gateware
