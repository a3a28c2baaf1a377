import Gateware.Markup.Attribute
import Gateware.Markup.Basic

/-!
# Writing a document

An element is written as its start tag, its text, its children and its end tag, or as one tag when
it has neither text nor children. What would be read as markup is written as an entity; white space
in a text is written as a reference to its code, since a reader trims texts.
-/

namespace Gateware.Markup

open Text

/-- The base in which the code of a character is written. -/
inductive CodeStyle where
  | decimal
  | hexadecimal
deriving DecidableEq

/-- The name of the reference to a character by its code. -/
def codeName (style : CodeStyle) (c : Char) : Text :=
  match style with
  | .decimal => '#' :: decimal c.toNat
  | .hexadecimal => '#' :: 'x' :: hexadecimal c.toNat

/-- The characters that would be read as markup, with the names of their entities. -/
def entities : List (Char × Text) :=
  [('&', "amp"), ('<', "lt"), ('>', "gt"), ('"', "quot"), ('\'', "apos")]

def referenceText (name : Text) : Text := '&' :: name ++ [';']

/-- A character of an attribute's value. -/
def valueChar (c : Char) : Text :=
  match entities.find? (·.1 == c) with
  | some e => referenceText e.2
  | none => [c]

/-- A character of an element's text. -/
def textChar (style : CodeStyle) (c : Char) : Text :=
  if isSpace c then referenceText (codeName style c) else valueChar c

def attributeText (a : Text × Text) : Text :=
  ' ' :: a.1 ++ '=' :: '"' :: a.2.flatMap valueChar ++ ['"']

namespace Element

/-- The inside of the start tag. -/
def tagText (e : Element) : Text := e.name ++ e.attributes.flatMap attributeText

def write (style : CodeStyle) (e : Element) : Text :=
  if e.text.isEmpty && e.children.isEmpty then '<' :: e.tagText ++ ['/', '>']
  else
    '<' :: e.tagText ++ '>' :: e.text.flatMap (textChar style) ++
      e.children.flatMap (fun c => write style c) ++ '<' :: '/' :: e.name ++ ['>']
termination_by e
decreasing_by
  cases e
  rename_i h
  have := List.sizeOf_lt_of_mem h
  simp_all
  omega

end Element

/-! ### What can be written -/

def isNameChar (c : Char) : Bool :=
  c.isAlphanum || c == ':' || c == '_' || c == '-' || c == '.'

/-- Names start with a letter. -/
structure IsName (name : Text) : Prop where
  first : ∃ c r, name = c :: r ∧ c.isAlpha = true
  chars : ∀ c ∈ name, isNameChar c = true

instance (name : Text) : Decidable (IsName name) :=
  decidable_of_iff (name.head?.any Char.isAlpha = true ∧ name.all isNameChar = true) <| by
    constructor
    · rintro ⟨first, chars⟩
      obtain ⟨c, head, alpha⟩ := (Option.any_eq_true ..).mp first
      obtain ⟨r, shape⟩ := List.head?_eq_some_iff.mp head
      exact ⟨⟨c, r, shape, alpha⟩, List.all_eq_true.mp chars⟩
    · rintro ⟨⟨c, r, rfl, alpha⟩, chars⟩
      exact ⟨alpha, List.all_eq_true.mpr chars⟩

/-- An element with names all over, and with different names for the attributes of one element. -/
inductive Element.Writable : Element → Prop
  | of {e : Element} (name : IsName e.name) (attributes : ∀ a ∈ e.attributes, IsName a.1)
      (distinct : (e.attributes.map Prod.fst).Nodup) (children : ∀ c ∈ e.children, Writable c) :
      Writable e

theorem Element.writable_iff {e : Element} :
    e.Writable ↔ IsName e.name ∧ (∀ a ∈ e.attributes, IsName a.1) ∧
      (e.attributes.map Prod.fst).Nodup ∧ ∀ c ∈ e.children, c.Writable :=
  ⟨fun ⟨name, attributes, distinct, children⟩ => ⟨name, attributes, distinct, children⟩,
    fun ⟨name, attributes, distinct, children⟩ => .of name attributes distinct children⟩

mutual

def Element.decideWritable : (e : Element) → Decidable e.Writable
  | ⟨_, _, _, children⟩ =>
    have := decideAllWritable children
    decidable_of_iff _ Element.writable_iff.symm

def Element.decideAllWritable : (l : List Element) → Decidable (∀ e ∈ l, e.Writable)
  | [] => isTrue nofun
  | e :: l =>
    have := decideWritable e
    have := decideAllWritable l
    decidable_of_iff (e.Writable ∧ ∀ c ∈ l, c.Writable) List.forall_mem_cons.symm

end

instance (e : Element) : Decidable e.Writable := e.decideWritable

/-! ### Before the root -/

/-- What may stand before the root element. -/
inductive Prolog where
  | space (blanks : Text)
  | comment (body : Text)
  /-- The declaration of the version of the markup. -/
  | declaration (body : Text)

namespace Prolog

def text : Prolog → Text
  | space blanks => blanks
  | comment body => '<' :: '!' :: '-' :: '-' :: body ++ ['-', '-', '>']
  | declaration body => '<' :: '?' :: 'x' :: 'm' :: 'l' :: body ++ ['?', '>']

/-- A comment or declaration that ends where its first end stands. -/
def IsComplete : Prolog → Prop
  | space blanks => ∀ c ∈ blanks, isSpace c = true
  | comment body => ¬ ['-', '-', '>'] <:+: body
  | declaration body => ¬ ['?', '>'] <:+: body

end Prolog

end Gateware.Markup
