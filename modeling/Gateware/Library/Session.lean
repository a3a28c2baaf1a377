import Gateware.Library.Reader

/-!
# Sessions over a file tree

What may happen between readings of components and libraries, in any order: files come, change and
go, and a cache is asked and told to forget. `answers` are those that the cache gives, and
`directAnswers` those of reading anew each time.
-/

namespace Gateware.LibrarySession

inductive Event where
  | write (path : Path) (text : Option Text) (time : Timestamp)
  | makeDirectory (path : Path)
  | remove (path : Path)
  /-- The cache forgets what it holds for a path. -/
  | forget (path : Path)
  | component (path : Path)
  | library (root path : Path)

inductive Answer where
  | silent
  | component (result : Except Component.FileFailure Component)
  | library (result : Except ManifestError (ParsedManifest × List ManifestWarning))

/-- The tree after an event; what fails leaves it as it was. -/
def change (t : FileTree) : Event → FileTree
  | .write path text time => (t.write path text time).toOption.getD t
  | .makeDirectory path => (t.createDirectory path).1
  | .remove path => (t.remove path).toOption.getD t
  | .forget _ => t
  | .component _ => t
  | .library _ _ => t

def answer (t : FileTree) (cache : ComponentCache) : Event → ComponentCache × Answer
  | .component path =>
    let (cache, result) := ComponentSource.cached.read cache t path
    (cache, .component result)
  | .library root path =>
    let (cache, result) := Manifest.ofFile t cache root path
    (cache, .library result)
  | .forget path => (cache.invalidate path, .silent)
  | _ => (cache, .silent)

def directAnswer (t : FileTree) : Event → Answer
  | .component path => .component (Component.ofFile t path)
  | .library root path => .library (Manifest.ofFileDirect t root path)
  | _ => .silent

def answers (t : FileTree) (cache : ComponentCache) : List Event → List Answer
  | [] => []
  | e :: events =>
    let (cache, a) := answer t cache e
    a :: answers (change t e) cache events

def directAnswers (t : FileTree) : List Event → List Answer
  | [] => []
  | e :: events => directAnswer t e :: directAnswers (change t e) events

/-- The trees that events pass through, the first one included. -/
def trees (t : FileTree) : List Event → List FileTree
  | [] => [t]
  | e :: events => t :: trees (change t e) events

end Gateware.LibrarySession
