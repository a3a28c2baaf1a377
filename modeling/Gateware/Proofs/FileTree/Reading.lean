import Gateware.Component.Cache
import Gateware.Proofs.FileTree.Place
import Gateware.Repository.Source

/-!
# Reading a file in two trees

Whatever is read at a path is a matter of what is found there. So two trees give the same wherever
they find the same.
-/

namespace Gateware

variable {t u : FileTree} {p : Path}

namespace FileTree

theorem isFile_congr (h : u.find p = t.find p) : u.isFile p = t.isFile p := by
  unfold isFile
  rw [h]

theorem isDirectory_congr (h : u.find p = t.find p) : u.isDirectory p = t.isDirectory p := by
  unfold isDirectory
  rw [h]

theorem read_congr (h : u.find p = t.find p) : u.read p = t.read p := by
  unfold read
  rw [h]

theorem modified?_congr (h : u.find p = t.find p) : u.modified? p = t.modified? p := by
  unfold modified?
  rw [h]

end FileTree

open FileTree

theorem Script.ofFile_congr (h : u.find p = t.find p) : ofFile u p = ofFile t p := by
  unfold ofFile
  rw [isFile_congr h, read_congr h]

theorem RegisterMap.ofFile_congr (h : u.find p = t.find p) : ofFile u p = ofFile t p := by
  unfold ofFile Script.readFile
  rw [Script.ofFile_congr h, modified?_congr h]

theorem Interface.ofFile_congr (h : u.find p = t.find p) : ofFile u p = ofFile t p := by
  unfold ofFile Script.readFile
  rw [Script.ofFile_congr h]

theorem Carrier.ofFile_congr (h : u.find p = t.find p) : ofFile u p = ofFile t p := by
  unfold ofFile
  rw [Script.ofFile_congr h]

theorem Component.ofFile_congr (h : u.find p = t.find p) : ofFile u p = ofFile t p := by
  unfold ofFile
  rw [read_congr h, modified?_congr h]

theorem ComponentCache.get_congr (h : u.find p = t.find p) (c : ComponentCache) :
    c.get u p = c.get t p := by
  unfold get current?
  rw [Component.ofFile_congr h, modified?_congr h]

end Gateware
