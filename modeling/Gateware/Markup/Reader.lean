import Gateware.Markup.Basic
import Gateware.Markup.Token

/-!
# Reading a document

The reader keeps the elements that are open, innermost first. A finished element becomes the last
child of the one around it; the first that has none around it is the answer, and what follows it
is not looked at.
-/

namespace Gateware.Markup

open Text

namespace Element

def ofTag (inside : Text) : Except Error Element :=
  (attributesEnd (byteSize inside) [] (inside.dropWhile fun c => !isSpace c)).map fun attributes =>
    ⟨inside.takeWhile fun c => !isSpace c, attributes, [], []⟩

/-- The name that an end tag closes: blanks may follow it. -/
def closedName (inside : Text) : Text :=
  if inside.all isSpace then inside else trimEndBy isSpace inside

def addText (e : Element) (t : Text) : Element := { e with text := e.text ++ t }

def addChild (e c : Element) : Element := { e with children := e.children ++ [c] }

/-- What a token does to the open elements: it leaves them changed, or finishes the root. -/
def step (opened : List Element) : Token → Except Error (List Element ⊕ Element)
  | .ignored => .ok (.inl opened)
  | .text piece =>
    match opened with
    | [] => .ok (.inl [])
    | e :: outer => (unescape piece).map fun t => .inl (e.addText t :: outer)
  | .data piece =>
    match opened with
    | [] => .ok (.inl [])
    | e :: outer => .ok (.inl (e.addText piece :: outer))
  | .start inside => (ofTag inside).map fun e => .inl (e :: opened)
  | .single inside =>
    (ofTag inside).map fun e =>
      match opened with
      | [] => .inr e
      | o :: outer => .inl (o.addChild e :: outer)
  | .close inside =>
    match opened with
    | [] => .error (.unmatchedEnd (closedName inside))
    | e :: outer =>
      if e.name = closedName inside then
        match outer with
        | [] => .ok (.inr e)
        | o :: outer => .ok (.inl (o.addChild e :: outer))
      else .error (.mismatchedEnd e.name (closedName inside))

def readOn (opened : List Element) (s : Text) : Except Error Element :=
  match h : Token.next? s with
  | .error e => .error e
  | .ok none => .error .noRoot
  | .ok (some (t, rest)) =>
    match step opened t with
    | .error e => .error e
    | .ok (.inr root) => .ok root
    | .ok (.inl opened) =>
      have := Token.length_of_next? h
      readOn opened rest
termination_by s.length

/-- The root element of a document, before which a byte order mark may stand. -/
def parse (source : Text) : Except Error Element :=
  readOn [] ((stripStart? "\ufeff" source).getD source)

end Element

end Gateware.Markup
