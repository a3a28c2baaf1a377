import Gateware.Proofs.Text.Literal
import Gateware.Proofs.Text.Numeral
import Gateware.Proofs.Text.Pieces
import Gateware.RegisterMap.Package

/-!
# Free parameters of what is printed

The parameters of a field are collected from its bounds with a blank for each pair of apostrophes,
and its bounds are printed without these pairs. The names are the same as long as no pair keeps two
names apart (`freeParameters_bitsText`); reset values are printed as they are collected
(`freeParameters_resetText`).
-/

namespace Gateware

open Text

/-! ### Pairs of apostrophes -/

def quotes : Text := ['\'', '\'']

theorem quotes_eq : String.toList "''" = quotes := by decide

theorem quotes_ne_nil : quotes ≠ [] := List.cons_ne_nil _ _

theorem stripStart?_quotes_eq_none_iff {c : Char} {s : Text} :
    stripStart? quotes (c :: s) = none ↔ (c = '\'' → s.head? ≠ some '\'') := by
  by_cases first : '\'' = c
  · cases s with
    | nil => simp [quotes, stripStart?]
    | cons d s => simp [quotes, stripStart?, ← first, eq_comm]
  · simp [quotes, stripStart?, first, Ne.symm first]

theorem replace_quotes_append (new : Text) {c : Char} (other : c ≠ '\'') (s t : Text) :
    replace quotes new (s ++ c :: t) = replace quotes new s ++ c :: replace quotes new t := by
  induction s using literalInduction quotes_ne_nil with
  | nil =>
    have miss : stripStart? quotes (c :: t) = none :=
      stripStart?_quotes_eq_none_iff.mpr fun same => absurd same other
    rw [List.nil_append, replace_cons miss]
    rfl
  | found s ih =>
    rw [List.append_assoc, replace_append quotes_ne_nil, replace_append quotes_ne_nil, ih,
      List.append_assoc]
  | kept a s miss ih =>
    have miss' : stripStart? quotes (a :: (s ++ c :: t)) = none := by
      rw [stripStart?_quotes_eq_none_iff] at miss ⊢
      intro same
      cases s with
      | nil => simpa using other
      | cons b s => exact miss same
    rw [List.cons_append, replace_cons miss', ih, replace_cons miss, List.cons_append]

/-- What a text is when its pairs of apostrophes are left out. -/
def unquoted (e : Text) : Text := replace quotes [] e

/-- What a text is with a blank for each of its pairs of apostrophes. -/
def spaced (e : Text) : Text := replace quotes " ".toList e

theorem unquoted_pair (s : Text) : unquoted (quotes ++ s) = unquoted s := by
  unfold unquoted
  rw [replace_append quotes_ne_nil, List.nil_append]

/-- What is left out puts no new pair together: the characters around it are no apostrophes, or
belong to a longer run of which at most one is left. -/
theorem not_quotes_unquoted (e : Text) : ¬ quotes <:+: unquoted e := by
  induction e using literalInduction quotes_ne_nil with
  | nil => simp [unquoted, quotes]
  | found s ih => rwa [unquoted_pair]
  | kept c s miss ih =>
    have kept : unquoted (c :: s) = c :: unquoted s := replace_cons miss []
    rw [kept, List.infix_cons_iff, not_or]
    refine ⟨?_, ih⟩
    rintro ⟨r, pair⟩
    obtain ⟨same, rest⟩ := List.cons_eq_cons.mp pair
    rw [stripStart?_quotes_eq_none_iff] at miss
    cases s with
    | nil => cases rest
    | cons d s =>
      have apart : d ≠ '\'' := fun second => miss same.symm (by rw [second]; rfl)
      have kept' : unquoted (d :: s) = d :: unquoted s :=
        replace_cons (stripStart?_quotes_eq_none_iff.mpr fun second => absurd second apart) []
      rw [kept'] at rest
      exact apart (List.cons_eq_cons.mp rest).1.symm

/-! ### Names -/

/-- What separates the words of an expression. -/
def separates (c : Char) : Bool := !(c.isAlphanum || c == '_' || c == '\'')

def isParameter (w : Text) : Bool :=
  match w with
  | [] => false
  | c :: _ => (c.isAlpha || c == '_') && !w.any (· == '\'') && !builtinFunctions.contains w

theorem freeParameters_eq (e : Text) :
    freeParameters e = (pieces separates (spaced e)).filter isParameter := by
  unfold freeParameters
  rw [quotes_eq]
  rfl

def isNameSign (c : Char) : Bool := c.isAlphanum || c == '_'

/-- Pairs of apostrophes come first, and a name right after them. -/
def Opens (e : Text) : Prop :=
  let run := e.takeWhile (· == '\'')
  run.length ≠ 0 ∧ run.length % 2 = 0 ∧ (e.dropWhile (· == '\'')).head?.any isNameSign = true

/-- Pairs of apostrophes, and nothing else, stand between two names. -/
def Glues : Text → Prop
  | [] => False
  | a :: e => isNameSign a = true ∧ Opens e ∨ Glues e

instance (e : Text) : Decidable (Opens e) := inferInstanceAs (Decidable (_ ∧ _ ∧ _))

instance decidableGlues : (e : Text) → Decidable (Glues e)
  | [] => inferInstanceAs (Decidable False)
  | _ :: e =>
    have := decidableGlues e
    inferInstanceAs (Decidable (_ ∧ Opens e ∨ Glues e))

theorem isNameSign_of_parameter {w : Text} (kept : ∀ c ∈ w, separates c = false)
    (h : isParameter w = true) : ∀ c ∈ w, isNameSign c = true := by
  intro c hc
  cases w with
  | nil => cases hc
  | cons b rest =>
    simp only [isParameter, Bool.and_eq_true, Bool.not_eq_true', List.any_eq_false, beq_iff_eq] at h
    have plain := h.1.2 c hc
    have inside := kept c hc
    simp only [separates, Bool.not_eq_false', Bool.or_eq_true, beq_iff_eq] at inside
    simpa [isNameSign, plain] using inside

theorem ne_quote_of_isNameSign {c : Char} (h : isNameSign c = true) : c ≠ '\'' := by
  rintro rfl
  exact absurd h (by decide)

theorem opens_pair {b : Char} (h : isNameSign b = true) (s : Text) : Opens (quotes ++ b :: s) := by
  have other := ne_quote_of_isNameSign h
  simp [Opens, quotes, other, h]

theorem Opens.pair {e : Text} (h : Opens e) : Opens (quotes ++ e) := by
  obtain ⟨-, even, name⟩ := h
  refine ⟨by simp [quotes], ?_, by simpa [quotes] using name⟩
  have longer : ((quotes ++ e).takeWhile (· == '\'')).length =
      (e.takeWhile (· == '\'')).length + 2 := by simp [quotes]
  omega

theorem Glues.append {e : Text} (h : Glues e) (lead : Text) : Glues (lead ++ e) := by
  induction lead with
  | nil => exact h
  | cons a lead ih => exact .inr ih

/-- The first word of what is printed goes on to the left; the other names are names of what is
collected. -/
def Agree (e : Text) : Prop :=
  ∃ p ps q qs, pieces separates (unquoted e) = p :: ps ∧
    pieces separates (spaced e) = q :: qs ∧
    (∀ w ∈ ps, isParameter w = true → w ∈ qs) ∧
    ((∀ c ∈ p, isNameSign c = true) → p = q ∨ Opens e ∧ p ∈ qs)

theorem head?_of_pieces {s : Text} {b : Char} {w : Text} {ws : List Text}
    (h : pieces separates s = (b :: w) :: ws) : s.head? = some b := by
  cases s with
  | nil => cases h
  | cons c s =>
    obtain ⟨v, vs, shape⟩ := List.exists_cons_of_ne_nil (pieces_ne_nil separates s)
    rw [pieces, shape] at h
    split at h
    · cases h
    · cases h
      rfl

/-- What is collected begins with a character of a name only where the text does. -/
theorem head_of_collected {s : Text} {b : Char} (sign : isNameSign b = true)
    (h : (spaced s).head? = some b) : ∃ rest, s = b :: rest := by
  induction s using literalInduction quotes_ne_nil with
  | nil => cases h
  | found s _ =>
    rw [spaced, replace_append quotes_ne_nil] at h
    cases h
    exact absurd sign (by decide)
  | kept c s miss _ =>
    rw [spaced, replace_cons miss] at h
    cases h
    exact ⟨s, rfl⟩

theorem names_of_first {e p q : Text} {ps qs : List Text}
    (printed : pieces separates (unquoted e) = p :: ps)
    (names : ∀ w ∈ ps, isParameter w = true → w ∈ qs)
    (first : (∀ c ∈ p, isNameSign c = true) → p = q ∨ Opens e ∧ p ∈ qs) :
    ∀ w ∈ p :: ps, isParameter w = true → w ∈ q :: qs := by
  intro w place parameter
  have inside := not_sep_of_mem_pieces (printed ▸ place)
  rcases List.mem_cons.mp place with rfl | place
  · rcases first (isNameSign_of_parameter inside parameter) with rfl | ⟨-, later⟩
    · exact List.mem_cons_self
    · exact List.mem_cons_of_mem q later
  · exact List.mem_cons_of_mem q (names w place parameter)

theorem agree {e : Text} (h : ¬ Glues e) : Agree e := by
  induction e using literalInduction quotes_ne_nil with
  | nil => exact ⟨[], [], [], [], rfl, rfl, by simp, fun _ => .inl rfl⟩
  | found s ih =>
    obtain ⟨p, ps, q, qs, printed, collected, names, first⟩ := ih fun glues => h (glues.append quotes)
    have blank : spaced (quotes ++ s) = ' ' :: spaced s :=
      replace_append quotes_ne_nil _ s
    refine ⟨p, ps, [], q :: qs, by rwa [unquoted_pair], ?_, ?_, ?_⟩
    · rw [blank, pieces, collected]
      rfl
    · exact fun w hw parameter => List.mem_cons_of_mem q (names w hw parameter)
    · -- The pair ends a word of what is collected, but the printed word goes on over it: it is a
      -- collected one only when a name stands right behind the pair.
      intro signs
      rcases first signs with rfl | ⟨opens, later⟩
      · cases p with
        | nil => exact .inl rfl
        | cons b w =>
          have sign := signs b List.mem_cons_self
          obtain ⟨rest, rfl⟩ := head_of_collected sign (head?_of_pieces collected)
          exact .inr ⟨opens_pair sign rest, List.mem_cons_self⟩
      · exact .inr ⟨opens.pair, List.mem_cons_of_mem q later⟩
  | kept c s miss ih =>
    obtain ⟨p, ps, q, qs, printed, collected, names, first⟩ := ih fun glues => h (glues.append [c])
    have kept : unquoted (c :: s) = c :: unquoted s := replace_cons miss []
    have kept' : spaced (c :: s) = c :: spaced s := replace_cons miss _
    cases sep : separates c with
    | true =>
      refine ⟨[], p :: ps, [], q :: qs, ?_, ?_, names_of_first printed names first,
        fun _ => .inl rfl⟩
      · rw [kept, pieces, printed, if_pos sep]
      · rw [kept', pieces, collected, if_pos sep]
    | false =>
      refine ⟨c :: p, ps, c :: q, qs, ?_, ?_, names, ?_⟩
      · rw [kept, pieces, printed, if_neg (by simp [sep])]
      · rw [kept', pieces, collected, if_neg (by simp [sep])]
      · intro signs
        obtain ⟨sign, signs⟩ := List.forall_mem_cons.mp signs
        rcases first signs with rfl | ⟨opens, -⟩
        · exact .inl rfl
        · exact absurd (.inl ⟨sign, opens⟩) h

/-- The names of what is printed for a text are the names that are collected from it. -/
theorem freeParameters_unquoted {e : Text} (h : ¬ Glues e) :
    ∀ p ∈ freeParameters (unquoted e), p ∈ freeParameters e := by
  intro w hw
  have same : spaced (unquoted e) = unquoted e :=
    replace_eq_self_of_not_infix (not_quotes_unquoted e) _
  rw [freeParameters_eq, List.mem_filter] at hw ⊢
  rw [same] at hw
  obtain ⟨place, parameter⟩ := hw
  refine ⟨?_, parameter⟩
  obtain ⟨p, ps, q, qs, printed, collected, names, first⟩ := agree h
  rw [printed] at place
  rw [collected]
  exact names_of_first printed names first w place parameter

/-! ### Texts of several words -/

theorem freeParameters_append {c : Char} (sep : separates c = true) (s t : Text) :
    freeParameters (s ++ c :: t) = freeParameters s ++ freeParameters t := by
  have other : c ≠ '\'' := by
    rintro rfl
    exact absurd sep (by decide)
  have split : spaced (s ++ c :: t) = spaced s ++ c :: spaced t :=
    replace_quotes_append _ other s t
  rw [freeParameters_eq, split, pieces_append_sep sep, List.filter_append, ← freeParameters_eq,
    ← freeParameters_eq]

theorem freeParameters_word {w : Text} (plain : ¬ quotes <:+: w)
    (word : ∀ c ∈ w, separates c = false) : freeParameters w = [w].filter isParameter := by
  have same : spaced w = w := replace_eq_self_of_not_infix plain _
  rw [freeParameters_eq, same, pieces_eq_singleton word]

theorem not_quotes_of_forall {s : Text} (h : ∀ c ∈ s, c ≠ '\'') : ¬ quotes <:+: s := by
  intro inner
  exact h '\'' (inner.subset List.mem_cons_self) rfl

theorem freeParameters_decimal (n : Nat) : freeParameters (decimal n) = [] := by
  have digit := forall_mem_decimal (p := fun c => !separates c && c != '\'' &&
    !(c.isAlpha || c == '_')) (by decide) n
  simp only [Bool.and_eq_true, Bool.not_eq_true', bne_iff_ne, ne_eq] at digit
  have plain := not_quotes_of_forall fun c hc => (digit c hc).1.2
  obtain ⟨d, rest, shape⟩ := List.exists_cons_of_ne_nil (decimal_ne_nil n)
  have first := (digit d (by simp [shape])).2
  rw [freeParameters_word plain fun c hc => (digit c hc).1.1, shape]
  simp [isParameter, first]

theorem freeParameters_hexText (n : Nat) : freeParameters (RegisterMap.hexText n) = [] := by
  have digit := forall_mem_hexadecimal (p := fun c => !separates c && c != '\'') (by decide) n
  simp only [Bool.and_eq_true, Bool.not_eq_true', bne_iff_ne, ne_eq] at digit
  have shape : RegisterMap.hexText n = '\'' :: 'h' :: hexadecimal n := by
    simp [RegisterMap.hexText]
  have plain : ¬ quotes <:+: RegisterMap.hexText n := by
    rw [shape, List.infix_cons_iff, not_or]
    refine ⟨?_, not_quotes_of_forall ?_⟩
    · rintro ⟨r, pair⟩
      cases pair
    · simpa using fun c hc => (digit c hc).2
  rw [freeParameters_word plain, shape]
  · rfl
  · rw [shape]
    simpa [separates] using fun c hc => (digit c hc).1

/-! ### Bounds and reset values -/

/-- Printing the bound puts two names together that are collected apart. -/
def Bound.Glues : Bound → Prop
  | .num _ => False
  | .expr e => Gateware.Glues e

instance : (b : Bound) → Decidable b.Glues
  | .num _ => inferInstanceAs (Decidable False)
  | .expr e => decidableGlues e

def FieldDefault.IsUndefined : FieldDefault → Prop
  | .hex _ => False
  | .expr short _ => includes "0xX" short = true

instance : (d : FieldDefault) → Decidable d.IsUndefined
  | .hex _ => inferInstanceAs (Decidable False)
  | .expr _ _ => inferInstanceAs (Decidable (_ = true))

theorem freeParameters_bound {b : Bound} (h : ¬ b.Glues) :
    ∀ p ∈ freeParameters (unquoted b.text), p ∈ b.parameters := by
  cases b with
  | num n =>
    have same : unquoted (decimal n) = decimal n :=
      replace_eq_self (c := '\'') List.mem_cons_self (not_mem_decimal (by decide) n) _
    intro p hp
    rw [Bound.text, same, freeParameters_decimal] at hp
    cases hp
  | expr e => exact freeParameters_unquoted h

namespace RegisterMap

theorem bitsText_span (high low : Bound) :
    bitsText (.span high low) = unquoted high.text ++ ',' :: ' ' :: unquoted low.text := by
  have comma : high.text ++ ", ".toList ++ low.text = high.text ++ ',' :: ([] ++ ' ' :: low.text) := by
    simp
  unfold bitsText
  simp only [comma, quotes_eq]
  rw [replace_quotes_append _ (by decide), replace_quotes_append _ (by decide)]
  rfl

theorem freeParameters_bitsText {high low : Bound} (hhigh : ¬ high.Glues) (hlow : ¬ low.Glues) :
    ∀ p ∈ freeParameters (bitsText (.span high low)), p ∈ (Bits.span high low).parameters := by
  intro p hp
  have split : freeParameters (bitsText (.span high low)) =
      freeParameters (unquoted high.text) ++ freeParameters (unquoted low.text) := by
    rw [bitsText_span, freeParameters_append (by decide),
      ← List.nil_append (' ' :: unquoted low.text), freeParameters_append (by decide)]
    rfl
  rw [split] at hp
  rcases List.mem_append.mp hp with hp | hp
  · exact List.mem_append_left _ (freeParameters_bound hhigh p hp)
  · exact List.mem_append_right _ (freeParameters_bound hlow p hp)

theorem freeParameters_resetText {reset : Option FieldDefault}
    (h : ∀ d, reset = some d → ¬ d.IsUndefined) :
    ∀ p ∈ freeParameters (resetText reset), p ∈ (reset.map FieldDefault.parameters).getD [] := by
  intro p hp
  cases reset with
  | none =>
    have printed : freeParameters (resetText none) = [] := by decide
    rw [printed] at hp
    cases hp
  | some d =>
    cases d with
    | hex value =>
      have printed : freeParameters (resetText (some (.hex value))) = [] :=
        freeParameters_hexText value
      rw [printed] at hp
      cases hp
    | expr short long =>
      have unmarked : ¬ includes "0xX" short = true := h _ rfl
      show p ∈ if includes "0xX" short then [] else freeParameters long
      rw [if_neg unmarked]
      exact hp

end RegisterMap

end Gateware
