import Gateware.Component.LaneName
import Gateware.Proofs.Text.Literal
import Gateware.Proofs.Text.Numeral
import Gateware.Proofs.Text.Trim

/-!
# Mentions of a lane

A dependency mentions a lane where the digits of its number stand as a word of their own
(`isMentioned_iff`), and `Starred` says what a dependency becomes when its mentions are replaced by
stars from the left: that text is the only one (`starred_iff`).
-/

namespace Gateware.LaneName

open Text

/-- Where a number may end. -/
def Ends (after : Text) : Prop := ∀ c ∈ after.head?, isBlank c = true ∨ c = ')'

/-- The number stands somewhere after a blank, and before a blank, a closing parenthesis or the end
of the text. -/
def Mentions (digits s : Text) : Prop :=
  ∃ before blank after, isBlank blank = true ∧ Ends after ∧
    s = before ++ blank :: (digits ++ after)

/-- What belongs to a mention after its digits, and what follows the mention: all blanks that
follow, one parenthesis, or nothing at the end. -/
inductive Closes : (closing rest : Text) → Prop
  | atEnd : Closes [] []
  | parenthesis (rest : Text) : Closes [')'] rest
  | blanks {closing rest : Text} (nonempty : closing ≠ [])
      (blank : ∀ c ∈ closing, isBlank c = true) (stop : ∀ c ∈ rest.head?, isBlank c = false) :
      Closes closing rest

/-- The second text is the first with a star for each mention, taken from the left. A blank that
closes one mention does not open the next. -/
inductive Starred (digits : Text) : Text → Text → Prop
  | absent {s : Text} (free : ¬ Mentions digits s) : Starred digits s s
  | first {before blanks closing rest t : Text} (free : ¬ Mentions digits before)
      (apart : ∀ c ∈ before.getLast?, isBlank c = false) (nonempty : blanks ≠ [])
      (blank : ∀ c ∈ blanks, isBlank c = true) (closes : Closes closing rest)
      (later : Starred digits rest t) :
      Starred digits (before ++ (blanks ++ (digits ++ (closing ++ rest))))
        (before ++ " * ".toList ++ t)

/-! ### The digits of a lane -/

/-- A word without blanks. -/
structure Solid (digits : Text) : Prop where
  nonempty : digits ≠ []
  noBlank : ∀ c ∈ digits, isBlank c = false

theorem isBlank_of_isDecDigit {c : Char} (h : isDecDigit c = true) : isBlank c = false := by
  have letter (n : Nat) : ((some (n + 10)).filter fun v => decide (v < 10)).isSome = false := by
    simp [Option.filter]
  have range : 48 ≤ c.toNat ∧ c.toNat ≤ 57 := by
    unfold isDecDigit digitValue? at h
    split at h
    · assumption
    · exfalso
      split at h
      · rw [letter] at h
        cases h
      · split at h
        · rw [letter] at h
          cases h
        · cases h
  have apart : ∀ n < 58, 48 ≤ n →
      ((blankCodes.bounds.takeWhile (· ≤ n)).length % 2 == 1) = false := by decide
  exact apart c.toNat (by omega) range.1

theorem solid_of_ofText? {name : Text} {n : LaneName} (h : ofText? name = some n) :
    Solid n.digits := by
  unfold ofText? at h
  simp only at h
  split at h
  · obtain ⟨index, value, rfl⟩ := Option.map_eq_some_iff.mp h
    refine ⟨?_, ?_⟩
    · intro empty
      simp only at empty
      rw [empty] at value
      cases value
    · intro c hc
      have digit : c ∈ (cutPolarity name).1.reverse.takeWhile isDecDigit := by
        simpa [cutDigits] using hc
      exact isBlank_of_isDecDigit (List.all_eq_true.mp List.all_takeWhile c digit)
  · cases h

/-! ### One mention -/

section

variable {digits : Text}

theorem Solid.head_noBlank (solid : Solid digits) (s : Text) :
    ∀ c ∈ (digits ++ s).head?, isBlank c = false := by
  obtain ⟨d, rest, rfl⟩ := List.exists_cons_of_ne_nil solid.nonempty
  simpa using solid.noBlank d List.mem_cons_self

/-- A mention at the start of a text: all blanks there, the digits, and what closes it. -/
theorem mention?_eq_some_iff (solid : Solid digits) {s rest : Text} :
    mention? digits s = some rest ↔ ∃ blanks closing, blanks ≠ [] ∧
      (∀ c ∈ blanks, isBlank c = true) ∧ Closes closing rest ∧
      s = blanks ++ (digits ++ (closing ++ rest)) := by
  constructor
  · intro h
    unfold mention? at h
    split at h
    · cases h
    · rename_i c r
      split at h
      · rename_i first
        obtain ⟨after, number, h⟩ := Option.bind_eq_some_iff.mp h
        rw [stripStart?_eq_some_iff] at number
        have blank : ∀ x ∈ c :: r.takeWhile isBlank, isBlank x = true :=
          List.forall_mem_cons.mpr ⟨first, List.all_eq_true.mp List.all_takeWhile⟩
        have shape : c :: r = (c :: r.takeWhile isBlank) ++ (digits ++ after) := by
          rw [← number, List.cons_append, List.takeWhile_append_dropWhile]
        refine ⟨c :: r.takeWhile isBlank, ?_⟩
        split at h
        · cases h
          exact ⟨[], List.cons_ne_nil _ _, blank, .atEnd, shape⟩
        · rename_i a tail
          split at h
          · rename_i last
            cases h
            have tailed : a :: tail = (a :: tail.takeWhile isBlank) ++ tail.dropWhile isBlank := by
              rw [List.cons_append, List.takeWhile_append_dropWhile]
            refine ⟨a :: tail.takeWhile isBlank, List.cons_ne_nil _ _, blank, ?_, ?_⟩
            · exact .blanks (List.cons_ne_nil _ _)
                (List.forall_mem_cons.mpr ⟨last, List.all_eq_true.mp List.all_takeWhile⟩)
                (head?_dropWhile tail)
            · rw [← tailed]
              exact shape
          · split at h
            · rename_i parenthesis
              cases h
              subst parenthesis
              exact ⟨[')'], List.cons_ne_nil _ _, blank, .parenthesis rest, shape⟩
            · cases h
      · cases h
  · rintro ⟨blanks, closing, nonempty, blank, closes, rfl⟩
    obtain ⟨c, blanks, rfl⟩ := List.exists_cons_of_ne_nil nonempty
    obtain ⟨first, blank⟩ := List.forall_mem_cons.mp blank
    have reached := dropWhile_append_stop blank (solid.head_noBlank (closing ++ rest))
    rw [List.cons_append, mention?, if_pos first, reached, stripStart?_append, Option.bind_some]
    cases closes with
    | atEnd => rfl
    | parenthesis => rfl
    | blanks nonempty blank stop =>
      obtain ⟨a, closing, rfl⟩ := List.exists_cons_of_ne_nil nonempty
      obtain ⟨last, blank⟩ := List.forall_mem_cons.mp blank
      simp only [List.cons_append, last, if_true, dropWhile_append_stop blank stop]

theorem consumes_mention? (solid : Solid digits) {α : Type} (a : α) :
    Consumes fun s => (mention? digits s).map fun r => (a, r) := by
  intro s b r h
  obtain ⟨rest, found, same⟩ := Option.map_eq_some_iff.mp h
  cases same
  obtain ⟨blanks, closing, nonempty, -, -, rfl⟩ := (mention?_eq_some_iff solid).mp found
  exact ⟨blanks ++ (digits ++ closing), by simp [nonempty], by simp⟩

/-! ### Mentions anywhere -/

theorem Closes.ends {closing rest : Text} (h : Closes closing rest) : Ends (closing ++ rest) := by
  cases h with
  | atEnd => simp [Ends]
  | parenthesis => simp [Ends]
  | blanks nonempty blank stop =>
    obtain ⟨a, closing, rfl⟩ := List.exists_cons_of_ne_nil nonempty
    simp [Ends, blank]

theorem Ends.closes {after : Text} (h : Ends after) :
    ∃ closing rest, after = closing ++ rest ∧ Closes closing rest := by
  cases after with
  | nil => exact ⟨[], [], rfl, .atEnd⟩
  | cons a after =>
    rcases h a (by simp) with blank | rfl
    · refine ⟨a :: after.takeWhile isBlank, after.dropWhile isBlank, ?_, ?_⟩
      · rw [List.cons_append, List.takeWhile_append_dropWhile]
      · exact .blanks (List.cons_ne_nil _ _)
          (List.forall_mem_cons.mpr ⟨blank, List.all_eq_true.mp List.all_takeWhile⟩)
          (head?_dropWhile after)
    · exact ⟨[')'], after, rfl, .parenthesis after⟩

/-- One blank in front of the digits is enough for a mention to begin. -/
theorem mention?_isSome_iff (solid : Solid digits) {s : Text} :
    (mention? digits s).isSome ↔ ∃ blanks after, blanks ≠ [] ∧ (∀ c ∈ blanks, isBlank c = true) ∧
      Ends after ∧ s = blanks ++ (digits ++ after) := by
  constructor
  · intro h
    obtain ⟨rest, found⟩ := Option.isSome_iff_exists.mp h
    obtain ⟨blanks, closing, nonempty, blank, closes, shape⟩ :=
      (mention?_eq_some_iff solid).mp found
    exact ⟨blanks, closing ++ rest, nonempty, blank, closes.ends, shape⟩
  · rintro ⟨blanks, after, nonempty, blank, ends, rfl⟩
    obtain ⟨closing, rest, rfl, closes⟩ := ends.closes
    have found := (mention?_eq_some_iff solid).mpr ⟨blanks, closing, nonempty, blank, closes, rfl⟩
    rw [found]
    rfl

theorem mentions_iff (solid : Solid digits) {s : Text} :
    Mentions digits s ↔ ∃ u, u <:+ s ∧ (mention? digits u).isSome := by
  constructor
  · rintro ⟨before, b, after, blank, ends, rfl⟩
    refine ⟨b :: (digits ++ after), List.suffix_append before _, ?_⟩
    exact (mention?_isSome_iff solid).mpr ⟨[b], after, List.cons_ne_nil _ _, by simpa, ends, rfl⟩
  · rintro ⟨u, ⟨before, rfl⟩, h⟩
    obtain ⟨blanks, after, nonempty, blank, ends, rfl⟩ := (mention?_isSome_iff solid).mp h
    rcases List.eq_nil_or_concat blanks with rfl | ⟨earlier, b, rfl⟩
    · exact absurd rfl nonempty
    · exact ⟨before ++ earlier, b, after, blank b (by simp), ends, by simp⟩

theorem isMentioned_iff {n : LaneName} (solid : Solid n.digits) {s : Text} :
    n.isMentioned s = true ↔ Mentions n.digits s := by
  rw [mentions_iff solid]
  unfold isMentioned
  rw [Bool.not_eq_true', List.isEmpty_eq_false_iff, ne_eq,
    findAll_eq_nil_iff (consumes_mention? solid ())]
  simp [Option.ne_none_iff_isSome]

/-! ### Stars for mentions -/

theorem mention?_apart (solid : Solid digits) {u hit : Text} (nonempty : u ≠ [])
    (free : ¬ Mentions digits u) (apart : ∀ c ∈ u.getLast?, isBlank c = false)
    (opens : ∀ c ∈ hit.head?, isBlank c = true) : mention? digits (u ++ hit) = none := by
  rw [← Option.not_isSome_iff_eq_none]
  intro h
  have alone : ¬ (mention? digits u).isSome := fun h =>
    free ((mentions_iff solid).mpr ⟨u, List.suffix_rfl, h⟩)
  obtain ⟨blanks, after, opened, blank, ends, shape⟩ := (mention?_isSome_iff solid).mp h
  -- The blanks of the match end before `u` does, and its digits as well: `hit` begins with a blank.
  rcases List.append_eq_append_iff.mp shape with ⟨more, rfl, -⟩ | ⟨word, rfl, inner⟩
  · have last := apart (u.getLast nonempty) (List.getLast?_eq_some_getLast nonempty)
    rw [blank _ (List.mem_append_left more (List.getLast_mem nonempty))] at last
    cases last
  rcases List.append_eq_append_iff.mp inner with ⟨rest, rfl, rfl⟩ | ⟨tail, whole, rfl⟩
  · have ends : Ends rest := by
      cases rest with
      | nil => simp [Ends]
      | cons a rest => simpa [Ends] using ends
    exact alone ((mention?_isSome_iff solid).mpr ⟨blanks, rest, opened, blank, ends, rfl⟩)
  · cases tail with
    | nil =>
      obtain rfl : digits = word := by simpa using whole
      refine alone ((mention?_isSome_iff solid).mpr ⟨blanks, [], opened, blank, ?_, by simp⟩)
      simp [Ends]
    | cons a tail =>
      have inside := solid.noBlank a (by simp [whole])
      rw [opens a rfl] at inside
      cases inside

theorem mentions_first (solid : Solid digits) {s : Text} (h : Mentions digits s) :
    ∃ before blanks closing rest, ¬ Mentions digits before ∧
      (∀ c ∈ before.getLast?, isBlank c = false) ∧ blanks ≠ [] ∧
      (∀ c ∈ blanks, isBlank c = true) ∧ Closes closing rest ∧
      s = before ++ (blanks ++ (digits ++ (closing ++ rest))) := by
  obtain ⟨before, hit, rfl, found, first⟩ := exists_first ((mentions_iff solid).mp h)
  obtain ⟨rest, found⟩ := Option.isSome_iff_exists.mp found
  obtain ⟨blanks, closing, nonempty, blank, closes, rfl⟩ := (mention?_eq_some_iff solid).mp found
  refine ⟨before, blanks, closing, rest, ?_, ?_, nonempty, blank, closes, rfl⟩
  · intro earlier
    obtain ⟨v, place, matched⟩ := (mentions_iff solid).mp earlier
    obtain ⟨spaces, after, opened, space, ends, rfl⟩ := (mention?_isSome_iff solid).mp matched
    have ends' : Ends (after ++ (blanks ++ (digits ++ (closing ++ rest)))) := by
      obtain ⟨b, blanks, rfl⟩ := List.exists_cons_of_ne_nil nonempty
      cases after with
      | nil => simp [Ends, blank]
      | cons a after => simpa [Ends] using ends
    have matched := (mention?_isSome_iff solid).mpr ⟨spaces, _, opened, space, ends', rfl⟩
    have missed := first _ (by simp [opened]) place
    rw [List.append_assoc, List.append_assoc] at missed
    rw [missed] at matched
    cases matched
  · intro c last
    obtain ⟨earlier, rfl⟩ := List.getLast?_eq_some_iff.mp last
    have missed := first [c] (List.cons_ne_nil _ _) (List.suffix_append earlier [c])
    cases blankness : isBlank c with
    | false => rfl
    | true =>
      have longer : ∀ x ∈ c :: blanks, isBlank x = true :=
        List.forall_mem_cons.mpr ⟨blankness, blank⟩
      have found := (mention?_eq_some_iff solid).mpr
        ⟨c :: blanks, closing, List.cons_ne_nil _ _, longer, closes, rfl⟩
      rw [List.cons_append] at found
      rw [List.singleton_append, found] at missed
      cases missed

variable {n : LaneName}

theorem generalize_eq_self (solid : Solid n.digits) {s : Text} (free : ¬ Mentions n.digits s) :
    n.generalize s = s := by
  refine substitute_eq_self fun u _ place => ?_
  rw [Option.map_eq_none_iff, ← Option.not_isSome_iff_eq_none]
  exact fun h => free ((mentions_iff solid).mpr ⟨u, place, h⟩)

theorem generalize_first (solid : Solid n.digits) {before blanks closing rest : Text}
    (free : ¬ Mentions n.digits before) (apart : ∀ c ∈ before.getLast?, isBlank c = false)
    (nonempty : blanks ≠ []) (blank : ∀ c ∈ blanks, isBlank c = true)
    (closes : Closes closing rest) :
    n.generalize (before ++ (blanks ++ (n.digits ++ (closing ++ rest)))) =
      before ++ " * ".toList ++ n.generalize rest := by
  have found := (mention?_eq_some_iff solid).mpr ⟨blanks, closing, nonempty, blank, closes, rfl⟩
  refine substitute_first (consumes_mention? solid _) ?_ (by simp only [found, Option.map_some])
  intro u nonempty' place
  rw [Option.map_eq_none_iff]
  refine mention?_apart solid nonempty' ?_ ?_ ?_
  · intro h
    obtain ⟨v, inner, matched⟩ := (mentions_iff solid).mp h
    exact free ((mentions_iff solid).mpr ⟨v, inner.trans place, matched⟩)
  · obtain ⟨earlier, rfl⟩ := place
    simpa [List.getLast?_append, List.getLast?_eq_some_getLast nonempty'] using apart
  · obtain ⟨b, blanks, rfl⟩ := List.exists_cons_of_ne_nil nonempty
    simp [blank]

theorem starred_generalize (solid : Solid n.digits) (s : Text) :
    Starred n.digits s (n.generalize s) := by
  induction h : s.length using Nat.strongRecOn generalizing s with
  | _ size ih =>
    by_cases mentioned : Mentions n.digits s
    · obtain ⟨before, blanks, closing, rest, free, apart, nonempty, blank, closes, rfl⟩ :=
        mentions_first solid mentioned
      have shorter : rest.length < size := by
        have := List.length_pos_iff.mpr nonempty
        simp only [List.length_append] at h
        omega
      rw [generalize_first solid free apart nonempty blank closes]
      exact .first free apart nonempty blank closes (ih rest.length shorter rest rfl)
    · rw [generalize_eq_self solid mentioned]
      exact .absent mentioned

theorem starred_iff (solid : Solid n.digits) {s t : Text} :
    Starred n.digits s t ↔ t = n.generalize s := by
  constructor
  · intro h
    induction h with
    | absent free => exact (generalize_eq_self solid free).symm
    | first free apart nonempty blank closes later ih =>
      rw [generalize_first solid free apart nonempty blank closes, ih]
  · rintro rfl
    exact starred_generalize solid s

end

end Gateware.LaneName
