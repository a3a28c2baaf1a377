import Gateware.Path.Basic
import Gateware.Sorted.Table
import Gateware.Timestamp

/-!
# File trees

A file tree holds directories and files by their locations, the names that lead to them from the
root. A path is followed from the working directory, and every directory on its way must exist.
A path that is too long is refused at once, a name that is too long where it is looked up.
-/

namespace Gateware

/-- The names that lead to a place from the root. -/
abbrev Location := List Text

/-- A file's text is absent when its bytes are no UTF-8. -/
inductive Node where
  | directory
  | file (text : Option Text) (modified : Timestamp)
  deriving DecidableEq

/-- Why a path leads to nothing that can be used. -/
inductive FileError where
  | notFound
  | isDirectory
  | notDirectory
  | nameTooLong
  | nulInPath
  | notText
  deriving DecidableEq, Repr

def FileError.message : FileError → Text
  | .notFound => "No such file or directory (os error 2)"
  | .isDirectory => "Is a directory (os error 21)"
  | .notDirectory => "Not a directory (os error 20)"
  | .nameTooLong => "File name too long (os error 36)"
  | .nulInPath => "file name contained an unexpected NUL byte"
  | .notText => "stream did not contain valid UTF-8"

/-- The most bytes that the name of a file or directory can have. -/
def nameLimit : Nat := 255

def pathLimit : Nat := 4095

/-- Why a path leads nowhere in any tree, if it does. -/
def FileError.ofPath? (p : Path) : Option FileError :=
  if p.text.contains '\x00' then some .nulInPath
  else if pathLimit < Text.byteSize p.text then some .nameTooLong
  else if p.text = [] then some .notFound
  else none

/-- `here` is the working directory. The root always exists. -/
structure FileTree where
  nodes : Table Location Node := .empty
  here : Location := []

namespace FileTree

def node? (t : FileTree) (l : Location) : Option Node :=
  if l = [] then some .directory else t.nodes.get? l

/-! ### Following paths -/

/-- Goes from a place, which must be a directory, to where one piece of a path leads. -/
def follow (t : FileTree) (l : Location) (piece : Text) : Except FileError Location :=
  match t.node? l with
  | none => .error .notFound
  | some (.file _ _) => .error .notDirectory
  | some .directory =>
    match PathPart.inner? piece with
    | some .up => .ok l.dropLast
    | some (.name n) => if nameLimit < Text.byteSize n then .error .nameTooLong else .ok (l ++ [n])
    | _ => .ok l

/-- The place that a path leads to, of which only the way there must exist. -/
def place (t : FileTree) (p : Path) : Except FileError Location :=
  match FileError.ofPath? p with
  | some e => .error e
  | none =>
    (Text.pieces (· == Path.separator) p.text).foldlM t.follow
      (if p.isAbsolute then [] else t.here)

/-- The place that a path leads to, and what is there. -/
def find (t : FileTree) (p : Path) : Except FileError (Location × Node) :=
  (t.place p).bind fun l =>
    match t.node? l with
    | some n => .ok (l, n)
    | none => .error .notFound

def isFile (t : FileTree) (p : Path) : Bool :=
  match t.find p with
  | .ok (_, .file _ _) => true
  | _ => false

def isDirectory (t : FileTree) (p : Path) : Bool :=
  match t.find p with
  | .ok (_, .directory) => true
  | _ => false

def read (t : FileTree) (p : Path) : Except FileError Text :=
  match t.find p with
  | .error e => .error e
  | .ok (_, .directory) => .error .isDirectory
  | .ok (_, .file none _) => .error .notText
  | .ok (_, .file (some text) _) => .ok text

def modified? (t : FileTree) (p : Path) : Option Timestamp :=
  match t.find p with
  | .ok (_, .file _ time) => some time
  | _ => none

def absolutePath (l : Location) : Path := ⟨Path.separator :: Text.joinWith [Path.separator] l⟩

/-! ### Listing -/

/-- What leads from one location to another below it. -/
def namesBelow? : (base l : Location) → Option (List Text)
  | [], l => some l
  | _ :: _, [] => none
  | a :: base, b :: l => if a = b then namesBelow? base l else none

/-- The files below a path, each directory's entries in the order of their names. -/
def filesUnder (t : FileTree) (p : Path) : List Path :=
  match t.find p with
  | .error _ => []
  | .ok (base, _) =>
    t.nodes.entries.filterMap fun e =>
      match e.2, namesBelow? base e.1 with
      | .file _ _, some names => some (names.foldl Path.join p)
      | _, _ => none

/-! ### Changing -/

/-- The tree with a file at a path; the directory that it stands in must exist. -/
def write (t : FileTree) (p : Path) (text : Option Text) (time : Timestamp) :
    Except FileError FileTree :=
  (t.place p).bind fun l =>
    match t.node? l with
    | some .directory => .error .isDirectory
    | _ => .ok { t with nodes := t.nodes.insert l (.file text time) }

/-- Makes the directories on the way that the pieces lead from a directory. -/
def makeDirectories (t : FileTree) (l : Location) : List Text → FileTree × Option FileError
  | [] => (t, none)
  | piece :: rest =>
    match PathPart.inner? piece with
    | some .up => makeDirectories t l.dropLast rest
    | some (.name n) =>
      if nameLimit < Text.byteSize n then (t, some .nameTooLong)
      else
        match t.node? (l ++ [n]) with
        | some .directory => makeDirectories t (l ++ [n]) rest
        | some (.file _ _) => (t, some .notDirectory)
        | none =>
          makeDirectories { t with nodes := t.nodes.insert (l ++ [n]) .directory } (l ++ [n]) rest
    | _ => makeDirectories t l rest

/-- The tree with the directory that a path names, and an error if a file is in the way or there
can be no such directory; an empty path names one that is there. -/
def createDirectory (t : FileTree) (p : Path) : FileTree × Option FileError :=
  if p.text = [] then (t, none)
  else
    match FileError.ofPath? p with
    | some e => (t, some e)
    | none =>
      t.makeDirectories (if p.isAbsolute then [] else t.here)
        (Text.pieces (· == Path.separator) p.text)

def remove (t : FileTree) (p : Path) : Except FileError FileTree :=
  match t.find p with
  | .error e => .error e
  | .ok (_, .directory) => .error .isDirectory
  | .ok (l, .file _ _) => .ok { t with nodes := t.nodes.erase l }

end FileTree

end Gateware
