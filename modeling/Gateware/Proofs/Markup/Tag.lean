import Gateware.Markup.Reader
import Gateware.Proofs.Markup.Escape

/-!
# Tags are read back

A tag ends at the first `>` outside of quotes (`tagEnd?_tagText`), and its inside is read as the
element that it opens (`ofTag_tagText`).
-/

namespace Gateware.Markup

open Text

/-! ### Names -/

theorem isNameChar_of_isAlpha {c : Char} (h : c.isAlpha = true) : isNameChar c = true := by
  simp [isNameChar, Char.isAlphanum, h]

/-- A character of a name is none that means something in a tag. -/
theorem ne_of_isNameChar {c x : Char} (h : isNameChar c = true) (hx : isNameChar x = false) :
    c ≠ x := by
  rintro rfl
  rw [h] at hx
  cases hx

theorem isSpace_of_isNameChar {c : Char} (h : isNameChar c = true) : isSpace c = false := by
  rw [← Bool.not_eq_true]
  intro space
  rcases eq_of_isSpace space with rfl | rfl | rfl | rfl <;> exact absurd h (by decide)

theorem IsName.no_space {name : Text} (h : IsName name) : ∀ c ∈ name, isSpace c = false :=
  fun c hc => isSpace_of_isNameChar (h.chars c hc)

/-! ### Where a tag ends -/

theorem tagEnd?_cons {c : Char} (h : c ≠ '>') (s : Text) :
    Token.tagEnd? none (c :: s) =
      (Token.tagEnd? (Token.opensQuote? c) s).map fun (t, r) => (c :: t, r) := by
  rw [Token.tagEnd?, if_neg h]

/-- Text without quotes and brackets belongs to the tag. -/
theorem tagEnd?_plain {s : Text} (h : ∀ c ∈ s, c ≠ '>' ∧ c ≠ '"' ∧ c ≠ '\'') (r : Text) :
    Token.tagEnd? none (s ++ r) = (Token.tagEnd? none r).map fun (t, r) => (s ++ t, r) := by
  induction s with
  | nil => simp
  | cons c s ih =>
    obtain ⟨bracket, double, single⟩ := h c List.mem_cons_self
    have quote : Token.opensQuote? c = none := by simp [Token.opensQuote?, double, single]
    rw [List.cons_append, tagEnd?_cons bracket, quote, ih fun c hc => h c (List.mem_cons_of_mem _ hc)]
    rw [Option.map_map]
    rfl

theorem tagEnd?_value {value : Text} (h : '"' ∉ value) (r : Text) :
    Token.tagEnd? (some '"') (value ++ '"' :: r) =
      (Token.tagEnd? none r).map fun (t, r) => (value ++ '"' :: t, r) := by
  induction value with
  | nil => simp [Token.tagEnd?]
  | cons c value ih =>
    obtain ⟨ne, rest⟩ := List.ne_and_not_mem_of_not_mem_cons h
    rw [List.cons_append, Token.tagEnd?, if_neg (Ne.symm ne), ih rest, Option.map_map]
    rfl

theorem not_mem_value (value : Text) : '"' ∉ value.flatMap valueChar := by
  intro h
  obtain ⟨c, -, hc⟩ := List.mem_flatMap.mp h
  exact not_mem_valueChar (.inr rfl) c hc

theorem plain_of_name {name : Text} (h : IsName name) :
    ∀ c ∈ name, c ≠ '>' ∧ c ≠ '"' ∧ c ≠ '\'' := fun c hc =>
  have char := h.chars c hc
  ⟨ne_of_isNameChar char (by decide), ne_of_isNameChar char (by decide),
    ne_of_isNameChar char (by decide)⟩

theorem tagEnd?_attributeText {a : Text × Text} (h : IsName a.1) (r : Text) :
    Token.tagEnd? none (attributeText a ++ r) =
      (Token.tagEnd? none r).map fun (t, r) => (attributeText a ++ t, r) := by
  have shape (t : Text) : attributeText a ++ t =
      (' ' :: a.1 ++ ['=']) ++ '"' :: (a.2.flatMap valueChar ++ '"' :: t) := by
    simp [attributeText]
  have front : ∀ c ∈ ' ' :: a.1 ++ ['='], c ≠ '>' ∧ c ≠ '"' ∧ c ≠ '\'' := by
    intro c hc
    rcases List.mem_append.mp hc with hc | hc
    · rcases List.mem_cons.mp hc with rfl | hc
      · decide
      · exact plain_of_name h c hc
    · rw [List.mem_singleton.mp hc]
      decide
  rw [shape, tagEnd?_plain front, tagEnd?_cons (by decide), show Token.opensQuote? '"' = some '"' from rfl,
    tagEnd?_value (not_mem_value a.2), Option.map_map, Option.map_map]
  congr 1
  funext p
  simp [shape]

/-- A tag ends at the bracket after its attributes. -/
theorem tagEnd?_tagText {e : Element} (name : IsName e.name)
    (attributes : ∀ a ∈ e.attributes, IsName a.1) (r : Text) :
    Token.tagEnd? none (e.tagText ++ r) =
      (Token.tagEnd? none r).map fun (t, r) => (e.tagText ++ t, r) := by
  have list (as : List (Text × Text)) (h : ∀ a ∈ as, IsName a.1) :
      Token.tagEnd? none (as.flatMap attributeText ++ r) =
        (Token.tagEnd? none r).map fun (t, r) => (as.flatMap attributeText ++ t, r) := by
    induction as with
    | nil => simp
    | cons a as ih =>
      rw [List.flatMap_cons, List.append_assoc, tagEnd?_attributeText (h a List.mem_cons_self),
        ih fun a ha => h a (List.mem_cons_of_mem _ ha), Option.map_map]
      simp only [Function.comp_def, List.append_assoc]
  unfold Element.tagText
  rw [List.append_assoc, tagEnd?_plain (plain_of_name name), list _ attributes, Option.map_map]
  simp only [Function.comp_def, List.append_assoc]

/-! ### Attributes -/

theorem attributeName_append {c : Char} {name : Text} (h : ∀ x ∈ name, isNameChar x = true)
    (rest : Text) : attributeName c (name ++ '=' :: rest) = .ok (c :: name, rest) := by
  have inside : ∀ x ∈ name, (x != '=' && !isSpace x) = true := by
    intro x hx
    have char := h x hx
    simp [isSpace_of_isNameChar char, ne_of_isNameChar char (show isNameChar '=' = false by decide)]
  have stop : ∀ x ∈ ('=' :: rest).head?, (x != '=' && !isSpace x) = false := by simp
  have noGap : ('=' :: rest).dropWhile isSpace = '=' :: rest := by simp [isSpace]
  unfold attributeName
  simp only [dropWhile_append_stop inside stop, takeWhile_append_stop inside stop, noGap]

theorem attributeValue_append {value : Text} (h : '"' ∉ value) (size : Nat) (rest : Text) :
    attributeValue size ('"' :: (value ++ '"' :: rest)) = .ok (value, rest) := by
  have noGap : ('"' :: (value ++ '"' :: rest)).dropWhile isSpace = '"' :: (value ++ '"' :: rest) := by
    simp [isSpace]
  have inside : ∀ x ∈ value, (x != '"') = true := by
    intro x hx
    exact bne_iff_ne.mpr fun same => h (same ▸ hx)
  have stop : ∀ x ∈ ('"' :: rest).head?, (x != '"') = false := by simp
  unfold attributeValue
  rw [noGap]
  simp only [true_or, if_true, dropWhile_append_stop inside stop, takeWhile_append_stop inside stop]

/-- One attribute of which name and value are known, and those after it. -/
theorem attributesEnd_next {size : Nat} {seen : List (Text × Nat)} {s r name afterName value rest
      text : Text} {c : Char} (blank : s.dropWhile isSpace = c :: r)
    (named : attributeName c r = .ok (name, afterName))
    (new : seen.find? (·.1 == name) = none)
    (valued : attributeValue size afterName = .ok (value, rest)) (read : unescape value = .ok text) :
    attributesEnd size seen s =
      (attributesEnd size ((name, size - byteSize (c :: r)) :: seen) rest).map ((name, text) :: ·) := by
  rw [attributesEnd]
  split
  · rename_i e
    rw [blank] at e
    cases e
  · rename_i c' r' e
    rw [blank] at e
    cases e
    simp only
    split
    · rename_i e
      rw [named] at e
      cases e
    · rename_i name' afterName' e
      rw [named] at e
      cases e
      rw [new]
      simp only
      split
      · rename_i e
        rw [valued] at e
        cases e
      · rename_i e
        rw [valued] at e
        cases e
        rw [read]

theorem attributesEnd_attributes {as : List (Text × Text)} (names : ∀ a ∈ as, IsName a.1)
    (distinct : (as.map Prod.fst).Nodup) (size : Nat) {seen : List (Text × Nat)}
    (new : ∀ a ∈ as, ∀ p ∈ seen, p.1 ≠ a.1) :
    attributesEnd size seen (as.flatMap attributeText) = .ok as := by
  -- `seen` grows by each name that is read, and the names to come stay apart from it.
  induction as generalizing seen with
  | nil =>
    rw [List.flatMap_nil, attributesEnd]
    rfl
  | cons a as ih =>
    obtain ⟨c, name, shape, alpha⟩ := (names a List.mem_cons_self).first
    obtain ⟨fresh, distinct⟩ := List.nodup_cons.mp (List.map_cons ▸ distinct)
    have chars : ∀ x ∈ name, isNameChar x = true := fun x hx =>
      (names a List.mem_cons_self).chars x (shape ▸ List.mem_cons_of_mem c hx)
    have visible := isSpace_of_isNameChar (isNameChar_of_isAlpha alpha)
    have written : (a :: as).flatMap attributeText =
        ' ' :: c :: (name ++ '=' :: '"' :: (a.2.flatMap valueChar ++ '"' ::
          as.flatMap attributeText)) := by
      simp [attributeText, shape]
    have blank (r : Text) : (' ' :: c :: r).dropWhile isSpace = c :: r := by
      rw [List.dropWhile_cons_of_pos (by decide), List.dropWhile_cons_of_neg (by simp [visible])]
    have unseen : seen.find? (·.1 == c :: name) = none := by
      rw [List.find?_eq_none]
      intro p hp
      simpa [shape] using new a List.mem_cons_self p hp
    rw [written, attributesEnd_next (blank _) (attributeName_append chars _) unseen
      (attributeValue_append (not_mem_value a.2) size _) (unescape_flatMap stands_valueChar a.2),
      ih (fun b hb => names b (List.mem_cons_of_mem _ hb)) distinct]
    · rw [← shape]
      rfl
    · intro b hb p hp
      rcases List.mem_cons.mp hp with rfl | hp
      · rw [← shape]
        exact fun same => fresh (List.mem_map.mpr ⟨b, hb, same.symm⟩)
      · exact new b (List.mem_cons_of_mem _ hb) p hp

/-! ### The element that a tag opens -/

theorem head?_attributes (as : List (Text × Text)) :
    ∀ c ∈ (as.flatMap attributeText).head?, (!isSpace c) = false := by
  cases as with
  | nil => simp
  | cons a as => simp [attributeText, isSpace]

theorem ofTag_tagText {e : Element} (name : IsName e.name)
    (attributes : ∀ a ∈ e.attributes, IsName a.1) (distinct : (e.attributes.map Prod.fst).Nodup) :
    Element.ofTag e.tagText = .ok ⟨e.name, e.attributes, [], []⟩ := by
  have inside : ∀ c ∈ e.name, (!isSpace c) = true := by simpa using name.no_space
  unfold Element.ofTag Element.tagText
  rw [dropWhile_append_stop inside (head?_attributes _), takeWhile_append_stop inside (head?_attributes _),
    attributesEnd_attributes attributes distinct _ (by simp)]
  rfl

theorem closedName_name {name : Text} (h : IsName name) : Element.closedName name = name := by
  unfold Element.closedName
  split
  · rfl
  · unfold trimEndBy
    have last : name.reverse.dropWhile isSpace = name.reverse := by
      cases shape : name.reverse with
      | nil => rfl
      | cons c r =>
        have hc : c ∈ name := List.mem_reverse.mp (shape ▸ List.mem_cons_self)
        simp [h.no_space c hc]
    rw [last, List.reverse_reverse]

end Gateware.Markup
