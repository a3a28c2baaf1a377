import Gateware.Interface
import Gateware.Library.Basic

/-!
# Looking up libraries and interfaces

The libraries that offer a vendor are found by their exact name, or else by a part of their key.
An interface is found by its name, in the first directory that defines it.
-/

namespace Gateware

open Text

/-- The libraries that offer one vendor: the least key of each name, and all keys, shortest
first. -/
structure VendorIndex where
  names : Table Text Text := .empty
  keys : List Text := []

/-- Shorter keys come first, and keys of one length in their order. -/
def Text.shorterFirst (a b : Text) : Bool :=
  byteSize a < byteSize b || (byteSize a == byteSize b && !Key.lt b a)

namespace VendorIndex

/-- Adds a library whose key comes after those that are in. -/
def add (i : VendorIndex) (key : Text) (l : Library) : VendorIndex where
  names := if i.names.contains l.name then i.names else i.names.insert l.name key
  keys := i.keys ++ [key]

def ofEntries (l : List (Text × Library)) : VendorIndex := l.foldl (fun i e => i.add e.1 e.2) {}

def ofTable (t : LibraryTable) (v : Vendor) : VendorIndex :=
  let i := ofEntries (t.entries.filter fun e => e.2.vendors.contains v)
  { i with keys := i.keys.mergeSort shorterFirst }

def keyOf? (i : VendorIndex) (name : Text) : Option Text := i.names.get? name

/-- The library of exactly that name, or else the shortest key in which it stands. -/
def closest? (i : VendorIndex) (name : Text) : Option Text :=
  (i.keyOf? name).or (i.keys.find? (includes name))

end VendorIndex

structure LibraryIndex where
  vendors : Table Vendor VendorIndex

namespace LibraryIndex

def ofTable (t : LibraryTable) : LibraryIndex :=
  ⟨.ofList (Vendor.all.map fun v => (v, VendorIndex.ofTable t v))⟩

def keyOf? (i : LibraryIndex) (v : Vendor) (name : Text) : Option Text :=
  (i.vendors.get? v).bind (·.keyOf? name)

def closest? (i : LibraryIndex) (v : Vendor) (name : Text) : Option Text :=
  (i.vendors.get? v).bind (·.closest? name)

end LibraryIndex

/-- The directory in which each interface is defined, from the root of the repository. -/
structure InterfaceIndex where
  directories : Table Text Path := .empty

namespace InterfaceIndex

/-- Adds the interfaces of a directory; the first directory of a name stays. -/
def insert (i : InterfaceIndex) (dir : Path) (names : List Text) : InterfaceIndex :=
  ⟨names.foldl (fun t name => if t.contains name then t else t.insert name dir) i.directories⟩

def directory? (i : InterfaceIndex) (name : Text) : Option Path := i.directories.get? name

def size (i : InterfaceIndex) : Nat := i.directories.size

end InterfaceIndex

end Gateware
