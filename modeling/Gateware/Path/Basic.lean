import Gateware.Text.Basic

/-!
# Paths

A path is kept as it is written, and read as a list of parts. Here stand the parts of a path,
joining, and the names at its end; `partsAfter?_eq_some_iff` says what it is to start with a path.
-/

namespace Gateware

open Text

/-- One part of a path; `here` and `up` are the two dotted parts. -/
inductive PathPart where
  | root
  | here
  | up
  | name (n : Text)
  deriving DecidableEq, Repr

namespace PathPart

def text : PathPart → Text
  | root => "/"
  | here => "."
  | up => ".."
  | name n => n

/-- The part that stands between two separators inside a path, where a single point is nothing. -/
def inner? (piece : Text) : Option PathPart :=
  if piece = [] ∨ piece = "." then none
  else if piece = ".." then some up
  else some (name piece)

end PathPart

structure Path where
  text : Text
deriving DecidableEq, Repr

namespace Path

instance : Inhabited Path := ⟨⟨[]⟩⟩

def separator : Char := '/'

def isAbsolute (p : Path) : Bool := p.text.head? == some separator

/-- The parts of a path: separators in a row count once, and a single point counts only in
front. -/
def parts (p : Path) : List PathPart :=
  match pieces (· == separator) p.text with
  | [] => []
  | first :: rest =>
    let inner := rest.filterMap PathPart.inner?
    if first = [] then if rest.isEmpty then [] else .root :: inner
    else if first = "." then .here :: inner
    else (PathPart.inner? first).toList ++ inner

/-- The path that leads on from `p`; an absolute one replaces it. -/
def join (p : Path) (t : Text) : Path :=
  if t.head? = some separator then ⟨t⟩
  else if p.text = [] ∨ p.text.getLast? = some separator then ⟨p.text ++ t⟩
  else ⟨p.text ++ separator :: t⟩

def joinParts (p : Path) (l : List PathPart) : Path := l.foldl (fun p c => p.join c.text) p

def ofParts (l : List PathPart) : Path := joinParts ⟨[]⟩ l

def toSlash (p : Path) : Text := joinWith [separator] (p.parts.map PathPart.text)

/-! ### The end of a path -/

def fileName? (p : Path) : Option Text :=
  match p.parts.getLast? with
  | some (.name n) => some n
  | _ => none

/-- A file name before and after its last point; a point in front belongs to the name. -/
def splitExtension (fileName : Text) : Text × Option Text :=
  match cutLast? '.' fileName with
  | some (stem, extension) => if stem = [] then (fileName, none) else (stem, some extension)
  | none => (fileName, none)

def stem? (p : Path) : Option Text := p.fileName?.map fun n => (splitExtension n).1

def extension? (p : Path) : Option Text := p.fileName?.bind fun n => (splitExtension n).2

/-- The pieces without those at the end that are no parts. -/
def trimPieces (l : List Text) : List Text :=
  (l.reverse.dropWhile fun piece => (PathPart.inner? piece).isNone).reverse

/-- The path without its last part, as it is written; the root has nothing above it. -/
def parent? (p : Path) : Option Path :=
  match p.parts.getLast?, pieces (· == separator) p.text with
  | none, _ => none
  | some .root, _ => none
  | some _, [] => none
  | some _, first :: rest =>
    match trimPieces rest with
    | [] => some ⟨[]⟩
    | above =>
      match first, trimPieces above.dropLast with
      | [], [] => some ⟨[separator]⟩
      | first, above => some ⟨joinWith [separator] (first :: above)⟩

/-! ### Beginnings -/

/-- The parts after those of `base`, if the path starts with them. -/
def partsAfter? : (base parts : List PathPart) → Option (List PathPart)
  | [], l => some l
  | _ :: _, [] => none
  | a :: base, b :: l => if a = b then partsAfter? base l else none

theorem partsAfter?_eq_some_iff {base l r : List PathPart} :
    partsAfter? base l = some r ↔ l = base ++ r := by
  fun_induction partsAfter? base l with
  | case1 l => simp
  | case2 => simp
  | case3 a base l ih => simp [ih]
  | case4 a base b l h => simp [Ne.symm h]

/-- What leads from `base` to the path, if the path starts with it. -/
def after? (p base : Path) : Option Path := (partsAfter? base.parts p.parts).map ofParts

def startsWith (p base : Path) : Bool := (partsAfter? base.parts p.parts).isSome

end Path

end Gateware
