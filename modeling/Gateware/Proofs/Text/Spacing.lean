import Gateware.Proofs.Text.Pieces
import Gateware.Proofs.Text.Trim
import Mathlib.Data.List.Chain

/-!
# Spaced texts

In a spaced text white space stands between words only, as single spaces. The words of any text make
a spaced one when they are joined by spaces, which holds the same characters besides white space
(`solid_joinWith_words`), and a spaced text is what its own words make (`Spaced.joinWith_words`).
-/

namespace Gateware.Text

variable {s t w : Text} {ws : List Text}

/-! ### Characters that are no white space -/

def solid (s : Text) : Text := s.filter fun c => !isBlank c

theorem solid_append (s t : Text) : solid (s ++ t) = solid s ++ solid t := List.filter_append s t

theorem solid_flatten (ws : List Text) : solid ws.flatten = ws.flatMap solid := by
  unfold solid
  rw [List.filter_flatten, List.flatMap_def]

theorem solid_eq_self (h : ∀ c ∈ s, isBlank c = false) : solid s = s :=
  List.filter_eq_self.mpr fun c hc => by rw [h c hc]; rfl

theorem solid_joinWith (ws : List Text) : solid (joinWith " " ws) = ws.flatMap solid := by
  induction ws with
  | nil => rfl
  | cons w ws ih =>
    cases ws with
    | nil => simp [joinWith]
    | cons v ws =>
      have gap (t : Text) : solid (' ' :: t) = solid t := by
        rfl
      rw [joinWith_cons_cons, solid_append, gap, ih]
      rfl

theorem flatMap_solid_filter (ws : List Text) :
    (ws.filter fun w => !w.isEmpty).flatMap solid = ws.flatMap solid := by
  induction ws with
  | nil => rfl
  | cons w ws ih =>
    cases w with
    | nil => exact ih
    | cons c w => exact congrArg (solid (c :: w) ++ ·) ih

theorem solid_joinWith_words (s : Text) : solid (joinWith " " (words s)) = solid s := by
  unfold words wordsBy
  rw [solid_joinWith, flatMap_solid_filter, ← solid_flatten, flatten_pieces]
  unfold solid
  rw [List.filter_filter]
  simp

theorem solid_trimEnd (s : Text) : solid (trimEnd s) = solid s := by
  have dropped (l : Text) : solid (l.dropWhile isBlank) = solid l := by
    induction l with
    | nil => rfl
    | cons c l ih =>
      by_cases blank : isBlank c = true
      · rw [List.dropWhile_cons_of_pos blank, ih]
        simp [solid, blank]
      · rw [List.dropWhile_cons_of_neg blank]
  unfold trimEnd trimEndBy solid at *
  rw [List.filter_reverse, dropped, List.filter_reverse, List.reverse_reverse]

theorem flatMap_solid_lines (s : Text) :
    (lines s).flatMap solid = solid s := by
  rw [← solid_flatten, flatten_lines]
  unfold solid
  rw [List.filter_filter]
  refine List.filter_congr fun c _ => ?_
  by_cases ends : c = '\n'
  · subst ends
    decide
  · simp [ends]

/-! ### Spaced texts -/

/-- White space stands between words of the text only, as single spaces. -/
structure Spaced (s : Text) : Prop where
  bare : Bare isBlank s
  spaces : ∀ c ∈ s, isBlank c = true → c = ' '
  single : s.IsChain fun a b => isBlank a = true → isBlank b = false

theorem spaced_nil : Spaced [] := ⟨⟨nofun, nofun⟩, nofun, .nil⟩

theorem spaced_of_solid (h : ∀ c ∈ s, isBlank c = false) : Spaced s where
  bare := bare_of_forall h
  spaces c hc blank := by
    rw [h c hc] at blank
    cases blank
  single := by
    have apart : s.Pairwise fun a b => isBlank a = true → isBlank b = false :=
      List.pairwise_of_forall_mem_list fun a _ b hb _ => h b hb
    exact apart.isChain

theorem Spaced.append (hs : Spaced s) (ht : Spaced t) (started : s ≠ []) (more : t ≠ []) :
    Spaced (s ++ ' ' :: t) where
  bare := by
    refine ⟨fun c hc => hs.bare.1 c ?_, fun c hc => ht.bare.2 c ?_⟩
    · rwa [List.head?_append_of_ne_nil _ started] at hc
    · rwa [List.getLast?_append_of_ne_nil _ (List.cons_ne_nil ' ' t),
        List.getLast?_cons_of_ne_nil more] at hc
  spaces c hc blank := by
    rcases List.mem_append.mp hc with before | after
    · exact hs.spaces c before blank
    · rcases List.mem_cons.mp after with gap | after
      · exact gap
      · exact ht.spaces c after blank
  single := by
    have behind : (' ' :: t).IsChain fun a b => isBlank a = true → isBlank b = false :=
      List.isChain_cons.mpr ⟨fun b hb _ => ht.bare.1 b hb, ht.single⟩
    refine hs.single.append behind fun a ha b _ blank => ?_
    rw [hs.bare.2 a ha] at blank
    cases blank

/-- The front of a spaced text is spaced when it does not end in a space. -/
theorem Spaced.of_prefix (h : Spaced s) (front : t <+: s)
    (last : ∀ c ∈ t.getLast?, isBlank c = false) : Spaced t where
  bare := by
    refine ⟨fun c hc => h.bare.1 c ?_, last⟩
    obtain ⟨r, rfl⟩ := front
    rw [List.head?_append, Option.mem_def.mp hc]
    rfl
  spaces c hc := h.spaces c (front.subset hc)
  single := h.single.prefix front

theorem joinWith_ne_nil (nonempty : ∀ w ∈ ws, w ≠ []) (some : ws ≠ []) : joinWith " " ws ≠ [] := by
  cases ws with
  | nil => exact absurd rfl some
  | cons w ws =>
    have first := nonempty w List.mem_cons_self
    cases ws <;> simp [joinWith, first]

theorem spaced_joinWith (h : ∀ w ∈ ws, w ≠ [] ∧ Spaced w) : Spaced (joinWith " " ws) := by
  induction ws with
  | nil => exact spaced_nil
  | cons w ws ih =>
    obtain ⟨first, rest⟩ := List.forall_mem_cons.mp h
    cases ws with
    | nil => exact first.2
    | cons v ws =>
      rw [joinWith_cons_cons]
      exact first.2.append (ih rest) first.1
        (joinWith_ne_nil (fun u hu => (rest u hu).1) (List.cons_ne_nil v ws))

theorem spaced_joinWith_words (s : Text) : Spaced (joinWith " " (words s)) := by
  refine spaced_joinWith fun w hw => ?_
  obtain ⟨piece, nonempty⟩ := List.mem_filter.mp hw
  exact ⟨by simpa using nonempty, spaced_of_solid (not_sep_of_mem_pieces piece)⟩

theorem trimEnd_of_spaces (h : ∀ c ∈ s, isBlank c = true → c = ' ') :
    trimEnd s = trimEndBy (· == ' ') s := by
  have same (l : Text) (hl : ∀ c ∈ l, isBlank c = true → c = ' ') :
      l.dropWhile isBlank = l.dropWhile (· == ' ') := by
    induction l with
    | nil => rfl
    | cons c l ih =>
      obtain ⟨first, rest⟩ := List.forall_mem_cons.mp hl
      by_cases gap : c = ' '
      · subst gap
        exact ih rest
      · rw [List.dropWhile_cons_of_neg (gap ∘ first), List.dropWhile_cons_of_neg (by simpa using gap)]
  unfold trimEnd trimEndBy
  rw [same _ fun c hc => h c (List.mem_reverse.mp hc)]

/-! ### The words of a spaced text -/

theorem joinWith_pieces {sep : Char → Bool} {d : Char} (h : ∀ c ∈ s, sep c = true → c = d) :
    joinWith [d] (pieces sep s) = s := by
  induction s with
  | nil => rfl
  | cons c s ih =>
    obtain ⟨w, ws, shape⟩ := List.exists_cons_of_ne_nil (pieces_ne_nil sep s)
    have rest := ih fun a ha => h a (List.mem_cons_of_mem c ha)
    rw [shape] at rest
    rw [pieces, shape]
    split
    · rename_i found
      rw [h c List.mem_cons_self found]
      exact congrArg (d :: ·) rest
    · cases ws <;> exact congrArg (c :: ·) rest

/-- An empty piece stands between two separators, or at an end. -/
theorem nil_notMem_pieces {sep : Char → Bool}
    (apart : s.IsChain fun a b => sep a = true → sep b = false)
    (last : ∀ c ∈ s.getLast?, sep c = false) {p : Text} {ps : List Text}
    (shape : pieces sep s = p :: ps) : [] ∉ ps ∧ (p = [] → ∀ c ∈ s.head?, sep c = true) := by
  induction s generalizing p ps with
  | nil =>
    obtain ⟨rfl, rfl⟩ := List.cons.inj shape
    exact ⟨List.not_mem_nil, fun _ => nofun⟩
  | cons c s ih =>
    obtain ⟨q, qs, behind⟩ := List.exists_cons_of_ne_nil (pieces_ne_nil sep s)
    obtain ⟨next, apart⟩ := List.isChain_cons.mp apart
    have last' : ∀ d ∈ s.getLast?, sep d = false := fun d hd =>
      last d (by rw [List.getLast?_cons, Option.mem_def.mp hd]; rfl)
    obtain ⟨rest, first⟩ := ih apart last' behind
    rw [pieces, behind] at shape
    split at shape
    · rename_i found
      obtain ⟨rfl, rfl⟩ := List.cons.inj shape
      refine ⟨List.not_mem_cons_of_ne_of_not_mem ?_ rest, fun _ d hd => Option.mem_some.mp hd ▸ found⟩
      intro empty
      cases s with
      | nil => simp [found] at last
      | cons d s =>
        have sepd := first empty.symm d rfl
        rw [next d rfl found] at sepd
        cases sepd
    · obtain ⟨rfl, rfl⟩ := List.cons.inj shape
      exact ⟨rest, fun empty => absurd empty (List.cons_ne_nil c q)⟩

theorem Spaced.joinWith_words (h : Spaced s) : joinWith " " (words s) = s := by
  by_cases empty : s = []
  · rw [empty]
    rfl
  obtain ⟨c, r, rfl⟩ := List.exists_cons_of_ne_nil empty
  obtain ⟨p, ps, shape⟩ := List.exists_cons_of_ne_nil (pieces_ne_nil isBlank (c :: r))
  obtain ⟨rest, first⟩ := nil_notMem_pieces h.single h.bare.2 shape
  have nonempty : [] ∉ pieces isBlank (c :: r) := by
    rw [shape]
    refine List.not_mem_cons_of_ne_of_not_mem (fun none => ?_) rest
    have blank := first none.symm c rfl
    rw [h.bare.1 c rfl] at blank
    cases blank
  have all : words (c :: r) = pieces isBlank (c :: r) :=
    List.filter_eq_self.mpr fun w hw => by simpa using ne_of_mem_of_not_mem hw nonempty
  rw [all]
  exact joinWith_pieces h.spaces

end Gateware.Text
