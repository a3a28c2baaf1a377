import Gateware.Component.Cache
import Gateware.Library.Basic
import Gateware.Script.File
import Gateware.Vendor.Token

/-!
# Reading a library manifest

A manifest is a script in the directory of its library. It lists files, libraries and buses; the
parameters of the top module are read from its source and compared with those that the vendor's
packaging declares.
-/

namespace Gateware

open Text

inductive ManifestError where
  | unknownManifest (path : Path)
  | outsideLibrary (path : Path)
  | outsideProjects (path : Path)
  | script (cause : Script.Error)
  deriving DecidableEq

def ManifestError.message : ManifestError → Text
  | .unknownManifest path => path.text ++ " is not a known manifest"
  | .outsideLibrary path => path.text ++ " is not inside library/"
  | .outsideProjects path => path.text ++ " is not inside projects/"
  | .script cause => cause.message

inductive ManifestWarning where
  | otherDirectory (fileName key : Text)
  | topNotFound (fileName assumed : Text)
  | topUnreadable (path : Path) (cause : FileError)
  | component (path : Path) (cause : Component.FileFailure)
  | undeclaredParameter (name top declaring : Text)
  | unusedParameter (name top declaring : Text)
  deriving DecidableEq

def ManifestWarning.message : ManifestWarning → Text
  | .otherDirectory fileName key =>
    "Manifest " ++ fileName ++ " doesn't match its directory library/" ++ key ++ "!"
  | .topNotFound fileName assumed =>
    "Top module not found in " ++ fileName ++ ", assuming '" ++ assumed ++ "'!"
  | .topUnreadable path cause =>
    "Couldn't read top module " ++ path.text ++ ": " ++ cause.message
  | .component path cause => path.text ++ ": " ++ cause.message
  | .undeclaredParameter name top declaring =>
    "Parameter " ++ name ++ " of " ++ top ++ " not found in " ++ declaring ++ "!"
  | .unusedParameter name top declaring =>
    "Parameter " ++ name ++ " of " ++ declaring ++ " not found in " ++ top ++ "!"

/-- Whether the component beside a manifest was read and refused for what it holds. -/
def ManifestWarning.isComponentContent : ManifestWarning → Bool
  | .component _ (.content _) => true
  | _ => false

namespace Manifest

/-! ### Files and names in the script -/

/-- The files that an adding call names: those of its lists, or else its words that are no
options. -/
def addedFiles (line : Text) : List Text :=
  match Script.listItems line with
  | [] =>
    (((Script.splitWords line).drop 1).filter fun w => w.head? != some '-').map Script.unquote
  | items => items

/-- The file of a fileset call: the word after `PATH`, or else the first one. -/
def filesetFile? (line : Text) : Option Text :=
  let words := Script.splitWords line
  let place := match words.findIdx? (· == "PATH".toList) with
    | some i => i + 1
    | none => 1
  words[place]?.map Script.unquote

/-- The top module that a listing call names: its first word, unless that is a list. -/
def topOf? (line : Text) : Option Text :=
  ((Script.splitWords line)[1]?.filter fun w =>
    w.head? != some '[' && w.head? != some '\x7b').map Script.unquote

/-- The top module and the files that a script names, without its own. -/
def listed (s : Script) : Option Text × List Text :=
  let (top, files) := match s.findCommand? Vendor.filesCalls with
    | some line => (topOf? line, Script.listItems line)
    | none => (none, (s.commands Vendor.addFilesCall).flatMap addedFiles)
  (top, files ++ (s.commands Vendor.filesetCall).filterMap filesetFile?)

/-- What a manifest script says, with the name of the top module when it gives none. -/
def ofScript (s : Script) (fileName assumedTop : Text) : Manifest × List ManifestWarning :=
  let (top, files) := listed s
  ({ top := top.getD assumedTop
     dependencies := .ofList (files ++ [fileName])
     libraryDependencies := s.captures Vendor.libraryToken? Vendor.dependencyCall
     interfaces :=
       (s.captures Vendor.interfaceToken? Vendor.busCall).filter fun n => !endsWith "_rtl" n },
    if top.isNone then [.topNotFound fileName assumedTop] else [])

/-! ### Parameters -/

/-- Whether a dependency is the source of the top module. -/
def isTopSource (top dependency : Text) : Bool :=
  let p : Path := ⟨dependency⟩
  p.stem? == some top && (p.extension? == some "v".toList || p.extension? == some "sv".toList)

/-- The parameters of the top module, if its source is among the dependencies. -/
def topParameters (t : FileTree) (root dir : Path) (m : Manifest) :
    Option (List ModuleParameter) × List ManifestWarning :=
  match m.dependencies.toList.find? (isTopSource m.top) with
  | none => (none, [])
  | some dependency =>
    let path := dependencyPath root dir dependency
    match t.read path with
    | .ok source => (some (Verilog.parameters source), [])
    | .error cause => (none, [.topUnreadable path cause])

section

variable {σ : Type} (components : ComponentSource σ)

/-- The parameters that a vendor's packaging declares, with the file that declares them. -/
structure Declared (σ : Type) where
  state : σ
  parameters : Option (Text × KeySet Text) := none
  warnings : List ManifestWarning := []

def componentName : Text := "component.xml"

def declaredParameters (t : FileTree) (state : σ) (v : Vendor) (dir : Path) (s : Script)
    (fileName : Text) : Declared σ :=
  match v with
  | .xilinx =>
    let path := dir.join componentName
    if t.isFile path then
      match components.read state t path with
      | (state, .ok c) =>
        { state, parameters := some (componentName, .ofList c.modelParameters) }
      | (state, .error cause) => { state, warnings := [.component path cause] }
    else { state }
  | .intel =>
    let declared := (s.commands Vendor.parameterCall).filterMap fun line =>
      (Script.splitWords line)[1]?
    { state
      parameters := if declared.isEmpty then none else some (fileName, .ofList declared) }

/-- The parameters that only the source or only the packaging has. -/
def compareParameters (top : Text) (source : List ModuleParameter) (declaring : Text)
    (declared : KeySet Text) : List ManifestWarning :=
  let names : KeySet Text := .ofList (source.map (·.name))
  (names.diff declared).toList.map (.undeclaredParameter · top declaring) ++
    (declared.diff names).toList.map (.unusedParameter · top declaring)

/-- The manifest with the parameters of its top module, compared with those declared. -/
def addParameters (t : FileTree) (state : σ) (root dir : Path) (v : Vendor) (s : Script)
    (fileName : Text) (m : Manifest) : σ × Manifest × List ManifestWarning :=
  match topParameters t root dir m with
  | (none, warnings) => (state, m, warnings)
  | (some parameters, warnings) =>
    let declared := declaredParameters components t state v dir s fileName
    let compared := match declared.parameters with
      | some (declaring, names) => compareParameters m.top parameters declaring names
      | none => []
    (declared.state, { m with parameters := some parameters },
      warnings ++ declared.warnings ++ compared)

/-! ### Manifests -/

def directory (root : Path) : Path := root.join "library"

/-- The manifest in a file, compared with the component that the source answers. -/
def read (t : FileTree) (state : σ) (root path : Path) :
    σ × Except ManifestError (ParsedManifest × List ManifestWarning) :=
  let fileName := path.fileName?.getD []
  let dir := path.parent?.getD ⟨[]⟩
  match Vendor.ofManifest? fileName with
  | none => (state, .error (.unknownManifest path))
  | some vendor =>
    match dir.after? (directory root) with
    | none => (state, .error (.outsideLibrary path))
    | some inside =>
      let key := inside.toSlash
      let ipName := (stripEnd? vendor.manifestEnd fileName).getD fileName
      match Script.ofFile t path with
      | .error cause => (state, .error (.script cause))
      | .ok script =>
        let place := if dir.fileName?.getD [] = ipName then [] else [.otherDirectory fileName key]
        let (manifest, top) := ofScript script fileName ipName
        let (state, manifest, parameters) :=
          addParameters components t state root dir vendor script fileName manifest
        (state, .ok (⟨key, ipName, vendor, manifest⟩, place ++ top ++ parameters))

end

/-- The manifest in a file, with components from a cache. -/
def ofFile (t : FileTree) (cache : ComponentCache) (root path : Path) :
    ComponentCache × Except ManifestError (ParsedManifest × List ManifestWarning) :=
  read .cached t cache root path

/-- The manifest in a file, with each component read anew. -/
def ofFileDirect (t : FileTree) (root path : Path) :
    Except ManifestError (ParsedManifest × List ManifestWarning) :=
  (read .direct t () root path).2

end Manifest

end Gateware
