import Gateware.Carrier
import Gateware.Interface
import Gateware.RegisterMap.Parser
import Gateware.Script.File

/-!
# Source files

Register maps, interfaces and boards as they are read from their files.
-/

namespace Gateware

/-- The register map that a file describes, with the time of the file. -/
def RegisterMap.ofFile (t : FileTree) (path : Path) :
    RegisterMap × List (FileWarning RegisterMap.ParseWarning) :=
  Script.readFile t path .empty fun lines =>
    let (m, warnings) := RegisterMap.parse lines
    ({ m with modified := t.modified? path }, warnings)

/-- The interfaces that a file defines. -/
def Interface.ofFile (t : FileTree) (path : Path) :
    List Interface × List (FileWarning Interface.Warning) :=
  Script.readFile t path [] Interface.parse

/-- The boards that a file names, and why it cannot be read. -/
def Carrier.ofFile (t : FileTree) (path : Path) : List Text × Option Script.Error :=
  match Script.ofFile t path with
  | .ok script => (Carrier.boards script.lines, none)
  | .error cause => ([], some cause)

end Gateware
