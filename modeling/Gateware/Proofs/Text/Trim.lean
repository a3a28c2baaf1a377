import Gateware.Text.Blank

/-!
# Trimmed texts

A text is its own trimmed form when what is trimmed stands at neither end of it
(`trimBy_eq_self_iff`), so joining pieces around a separator makes a trimmed text of trimmed ones.
-/

namespace Gateware.Text

variable {p : Char → Bool}

/-- Neither end of the text satisfies `p`. -/
def Bare (p : Char → Bool) (s : Text) : Prop :=
  (∀ c ∈ s.head?, p c = false) ∧ ∀ c ∈ s.getLast?, p c = false

theorem dropWhile_eq_self {s : Text} (h : ∀ c ∈ s.head?, p c = false) : s.dropWhile p = s := by
  cases s with
  | nil => rfl
  | cons c s => simp [h c (by simp)]

/-- A run of what satisfies `p` ends where something else follows it. -/
theorem takeWhile_append_stop {s r : Text} (run : ∀ c ∈ s, p c = true)
    (stop : ∀ c ∈ r.head?, p c = false) : (s ++ r).takeWhile p = s := by
  rw [List.takeWhile_append_of_pos run]
  cases r with
  | nil => simp
  | cons c r => simp [stop c (by simp)]

theorem takeWhile_append_other {r : Text} (stop : ∀ c ∈ r.head?, p c = false) (s : Text) :
    (s ++ r).takeWhile p = s.takeWhile p := by
  induction s with
  | nil => exact takeWhile_append_stop (by simp) stop
  | cons c s ih =>
    cases first : p c with
    | true =>
      rw [List.cons_append, List.takeWhile_cons_of_pos first, List.takeWhile_cons_of_pos first, ih]
    | false =>
      rw [List.cons_append, List.takeWhile_cons_of_neg (by simp [first]),
        List.takeWhile_cons_of_neg (by simp [first])]

theorem dropWhile_append_stop {s r : Text} (run : ∀ c ∈ s, p c = true)
    (stop : ∀ c ∈ r.head?, p c = false) : (s ++ r).dropWhile p = r := by
  rw [List.dropWhile_append_of_pos run]
  cases r with
  | nil => rfl
  | cons c r => simp [stop c (by simp)]

theorem head?_dropWhile (s : Text) : ∀ c ∈ (s.dropWhile p).head?, p c = false := by
  intro c h
  have first := List.head?_dropWhile_not p s
  rw [Option.mem_def.mp h] at first
  simpa using first

theorem trimEndBy_eq_self {s : Text} (h : ∀ c ∈ s.getLast?, p c = false) : trimEndBy p s = s := by
  unfold trimEndBy
  rw [dropWhile_eq_self (by simpa using h), List.reverse_reverse]

theorem prefix_trimEndBy (s : Text) : trimEndBy p s <+: s := by
  unfold trimEndBy
  rw [← List.reverse_suffix, List.reverse_reverse]
  exact List.dropWhile_suffix p

theorem getLast?_trimEndBy (s : Text) : ∀ c ∈ (trimEndBy p s).getLast?, p c = false := by
  unfold trimEndBy
  rw [List.getLast?_reverse]
  exact head?_dropWhile s.reverse

theorem trimBy_eq_self {s : Text} (h : Bare p s) : trimBy p s = s := by
  unfold trimBy
  rw [dropWhile_eq_self h.1]
  exact trimEndBy_eq_self h.2

/-- Only a text that is bare at both ends is its own trimmed form: trimming the front alone would
make it shorter. -/
theorem bare_of_trimBy {s : Text} (h : trimBy p s = s) : Bare p s := by
  have front : s.dropWhile p = s := by
    have suffix := List.dropWhile_suffix p (l := s)
    have rest := (List.dropWhile_suffix p (l := (s.dropWhile p).reverse)).length_le
    have total := congrArg List.length h
    simp only [trimBy, List.length_reverse] at total rest
    exact suffix.eq_of_length (by have := suffix.length_le; omega)
  have back : s.reverse.dropWhile p = s.reverse := by
    unfold trimBy at h
    rw [front] at h
    rw [← List.reverse_reverse (s.reverse.dropWhile p), h]
  constructor
  · rw [← front]
    exact head?_dropWhile s
  · rw [← List.head?_reverse, ← back]
    exact head?_dropWhile s.reverse

theorem trimBy_eq_self_iff {s : Text} : trimBy p s = s ↔ Bare p s :=
  ⟨bare_of_trimBy, trimBy_eq_self⟩

/-- A separator that is bare itself may join any two bare texts. -/
theorem Bare.join {s t : Text} {c : Char} (hs : Bare p s) (hc : p c = false) (ht : Bare p t) :
    Bare p (s ++ c :: t) := by
  constructor
  · cases s with
    | nil => simpa using hc
    | cons a s => simpa using hs.1
  · cases ht' : t.getLast? with
    | none =>
      have empty := List.getLast?_eq_none_iff.mp ht'
      simp [empty, hc]
    | some d =>
      have last : (s ++ c :: t).getLast? = some d := by simp [List.getLast?_cons, ht']
      rw [last]
      simpa [ht'] using ht.2

/-- Whatever stands between two bare texts. -/
theorem Bare.around {s t : Text} (hs : Bare p s) (ht : Bare p t) (front : s ≠ []) (back : t ≠ [])
    (m : Text) : Bare p (s ++ (m ++ t)) := by
  constructor
  · obtain ⟨c, r, rfl⟩ := List.exists_cons_of_ne_nil front
    exact hs.1
  · have last : (s ++ (m ++ t)).getLast? = t.getLast? := by
      rw [← List.append_assoc, List.getLast?_append, List.getLast?_eq_some_getLast back]
      rfl
    rw [last]
    exact ht.2

theorem bare_of_forall {s : Text} (h : ∀ c ∈ s, p c = false) : Bare p s :=
  ⟨fun c hc => h c (List.mem_of_mem_head? hc), fun c hc => h c (List.mem_of_getLast? hc)⟩

/-- A text with nothing but blanks around it. -/
inductive Padded (s : Text) : Text → Prop
  | mk {a b : Text} : (∀ c ∈ a, isBlank c = true) → (∀ c ∈ b, isBlank c = true) →
      Padded s (a ++ (s ++ b))

theorem trimBy_append {a s b : Text} (bare : Bare p s) (nonempty : s ≠ [])
    (before : ∀ c ∈ a, p c = true) (after : ∀ c ∈ b, p c = true) :
    trimBy p (a ++ (s ++ b)) = s := by
  have front : (a ++ (s ++ b)).dropWhile p = s ++ b := by
    rw [List.dropWhile_append_of_pos before]
    obtain ⟨c, r, rfl⟩ := List.exists_cons_of_ne_nil nonempty
    exact dropWhile_eq_self bare.1
  have back : (s ++ b).reverse.dropWhile p = s.reverse := by
    rw [List.reverse_append, List.dropWhile_append_of_pos (by simpa using after)]
    exact dropWhile_eq_self fun c last => bare.2 c (by simpa using last)
  rw [trimBy, front, back, List.reverse_reverse]

theorem Padded.trim {s t : Text} (padded : Padded s t) (bare : Bare isBlank s)
    (nonempty : s ≠ []) : Text.trim t = s := by
  cases padded with
  | mk before after => exact trimBy_append bare nonempty before after

theorem dropWhile_dropWhile {q : Char → Bool} (sub : ∀ c, q c = true → p c = true) (s : Text) :
    (s.dropWhile q).dropWhile p = s.dropWhile p := by
  induction s with
  | nil => rfl
  | cons c s ih =>
    cases first : q c with
    | true => rw [List.dropWhile_cons_of_pos first, List.dropWhile_cons_of_pos (sub c first), ih]
    | false => rw [List.dropWhile_cons_of_neg (by simp [first])]

theorem trim_eq_self_iff {s : Text} : trim s = s ↔ Bare isBlank s := trimBy_eq_self_iff

end Gateware.Text
