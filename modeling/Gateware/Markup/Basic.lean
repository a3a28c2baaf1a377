import Gateware.Text.Basic

/-!
# Elements

A document is a tree of elements. Names are kept as written, with their qualifier; elements are
looked up by the name after it.
-/

namespace Gateware.Markup

structure Element where
  name : Text
  attributes : List (Text × Text) := []
  text : Text := []
  children : List Element := []

instance : Inhabited Element := ⟨⟨[], [], [], []⟩⟩

def localName (name : Text) : Text :=
  match Text.cutLast? ':' name with
  | some (_, l) => l
  | none => name

namespace Element

def localName (e : Element) : Text := Markup.localName e.name

/-- The value of the first attribute of that full name. -/
def attribute? (e : Element) (name : Text) : Option Text :=
  (e.attributes.find? (·.1 == name)).map Prod.snd

/-- The elements below the given ones that are reached by taking, step after step, the children of
that local name. -/
def descend (path : List Text) (es : List Element) : List Element :=
  path.foldl (fun es step => es.flatMap fun e => e.children.filter (·.localName == step)) es

def all (e : Element) (path : List Text) : List Element := descend path [e]

def first? (e : Element) (path : List Text) : Option Element := (e.all path).head?

def textOf? (e : Element) (path : List Text) : Option Text := (e.first? path).map (·.text)

end Element

end Gateware.Markup
