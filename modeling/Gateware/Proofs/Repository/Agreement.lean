import Gateware.Proofs.Component.Views
import Gateware.Proofs.Project.Agreement
import Gateware.Proofs.Repository.Loading
import Gateware.Repository.Generation

/-!
# Stages on trees that agree

What a stage finds depends on the sources that the tree lists and on what is found at them, beside
them and where they refer to (`mapStage_congr`, `makefileStage_congr`). From the cache it depends on
what that shows (`makefileStage_views`).
-/

namespace Gateware

open Text

namespace Loaded

variable {α β γ : Type} {l : List α}

theorem fold_congr {f g : β → α → Loaded β} (h : ∀ b, ∀ x ∈ l, f b x = g b x) (b : β) :
    fold f b l = fold g b l := by
  induction l generalizing b with
  | nil => rfl
  | cons x l ih =>
    have later := ih fun b y hy => h b y (List.mem_cons_of_mem x hy)
    rw [fold_cons, fold_cons, h b x List.mem_cons_self]
    unfold andThen
    simp only [later]

/-- Folds whose steps keep a relation and tell the same warnings keep and tell them as a whole. -/
theorem fold_related {f : β → α → Loaded β} {g : γ → α → Loaded γ} {R : β → γ → Prop}
    (step : ∀ b c, R b c → ∀ x ∈ l,
      R (f b x).value (g c x).value ∧ (f b x).warnings = (g c x).warnings)
    {b : β} {c : γ} (h : R b c) :
    R (fold f b l).value (fold g c l).value ∧ (fold f b l).warnings = (fold g c l).warnings := by
  induction l generalizing b c with
  | nil => exact ⟨h, rfl⟩
  | cons x l ih =>
    obtain ⟨related, first⟩ := step b c h x List.mem_cons_self
    obtain ⟨kept, rest⟩ := ih (fun b c h y hy => step b c h y (List.mem_cons_of_mem x hy)) related
    rw [fold_cons, fold_cons]
    exact ⟨kept, congrArg₂ _ first rest⟩

end Loaded

namespace Repository

open FileTree ComponentCache

variable {r : Repository} {t u : FileTree} {cache cache' : ComponentCache} {stamp : Stamp}

/-! ### The same tree to a run -/

/-- A file of the tree makes a run look for a file at the path. -/
inductive Refers (r : Repository) (t : FileTree) (p : Path) : Prop
  | top {s : Vendor × Path} (listed : s ∈ r.manifests t) (named : Manifest.Names t r.root s.2 p)
  | script {entry : Path} (listed : entry ∈ r.projectEntries t)
      (named : Project.Names t r.root entry p)

/-- All paths at which a run looks for the top modules of libraries. -/
def topPaths (r : Repository) (t : FileTree) : List Path :=
  (r.manifests t).flatMap fun s => Manifest.namedPaths t r.root s.2

theorem mem_topPaths {s : Vendor × Path} {p : Path} (listed : s ∈ r.manifests t)
    (named : Manifest.Names t r.root s.2 p) : p ∈ r.topPaths t :=
  List.mem_flatMap.mpr ⟨s, listed, Manifest.mem_namedPaths named⟩

/-- The script that stands beside the entry of a project. -/
def projectScript (r : Repository) (entry : Path) : Path :=
  (Project.placeOf r.root entry).directory.join Vendor.projectScript

/-- Two trees in which a run finds the same. -/
structure Alike (r : Repository) (t u : FileTree) : Prop where
  mapSources : r.mapSources u = r.mapSources t
  interfaceScripts : r.interfaceScripts u = r.interfaceScripts t
  manifests : r.manifests u = r.manifests t
  projectEntries : r.projectEntries u = r.projectEntries t
  testbenches : u.find (r.root.join testbenchesName) = t.find (r.root.join testbenchesName)
  carriers : ∀ v, u.find (r.carrierScript v) = t.find (r.carrierScript v)
  map : ∀ s ∈ r.mapSources t, u.find s.2 = t.find s.2
  interface : ∀ p ∈ r.interfaceScripts t, u.find p = t.find p
  manifest : ∀ s ∈ r.manifests t, u.find s.2 = t.find s.2 ∧
    u.find (Manifest.componentBeside s.2) = t.find (Manifest.componentBeside s.2)
  project : ∀ p ∈ r.projectEntries t, u.find p.normalize = t.find p.normalize ∧
    u.find (r.projectScript p) = t.find (r.projectScript p) ∧
    u.find (r.projectScript p).normalize = t.find (r.projectScript p).normalize
  reference : ∀ p, Refers r t p → u.find p = t.find p

theorem mapStage_congr (alike : Alike r t u) : r.mapStage u stamp = r.mapStage t stamp := by
  have maps : r.loadMaps u = r.loadMaps t := by
    unfold loadMaps
    rw [alike.mapSources, Loaded.fold_congr fun maps s hs => ?_]
    unfold loadMap
    rw [RegisterMap.ofFile_congr (alike.map s hs)]
  have there : r.hasTestbenches u = r.hasTestbenches t := isDirectory_congr alike.testbenches
  unfold mapStage
  rw [maps, there]

/-! ### The stage of the makefiles -/

theorem loadInterfaces_congr (alike : Alike r t u) : r.loadInterfaces u = r.loadInterfaces t := by
  unfold loadInterfaces
  rw [alike.interfaceScripts, Loaded.fold_congr fun index p hp => ?_]
  unfold loadInterface
  rw [Interface.ofFile_congr (alike.interface p hp)]

theorem manifest_congr (alike : Alike r t u) {s : Vendor × Path} (hs : s ∈ r.manifests t)
    (cache : ComponentCache) :
    Manifest.ofFile u cache r.root s.2 = Manifest.ofFile t cache r.root s.2 := by
  obtain ⟨script, component⟩ := alike.manifest s hs
  have answers (c : ComponentCache) :
      ComponentSource.cached.read c u (Manifest.componentBeside s.2) =
        ComponentSource.cached.read c t (Manifest.componentBeside s.2) := by
    rw [ComponentSource.cached_read, ComponentSource.cached_read,
      ComponentCache.get_congr component]
  obtain ⟨result, kept⟩ := @Manifest.read_agree _ _ .cached .cached Eq cache cache t u r.root s.2
    script (fun p named => alike.reference p (.top hs named)) (isFile_congr component)
    ⟨fun same => by rw [same, answers], fun same => by rw [same, answers]⟩ rfl
  exact Prod.ext kept result

theorem loadLibraries_congr (alike : Alike r t u) (cache : ComponentCache)
    (interfaces : InterfaceIndex) :
    r.loadLibraries u cache interfaces = r.loadLibraries t cache interfaces := by
  unfold loadLibraries
  rw [alike.manifests, Loaded.fold_congr fun p s hs => ?_]
  unfold loadManifest
  simp only [manifest_congr alike hs]

theorem loadProjects_congr (alike : Alike r t u) (libraries : LibraryTable) :
    r.loadProjects u libraries = r.loadProjects t libraries := by
  unfold loadProjects
  rw [alike.projectEntries, Loaded.fold_congr fun projects p hp => ?_]
  obtain ⟨first, own, second⟩ := alike.project p hp
  have read : Project.ofFile u r.root p = Project.ofFile t r.root p :=
    Project.ofFile_congr first (isFile_congr own) second fun q named =>
      alike.reference q (.script hp named)
  unfold Project.ofFile at read
  unfold loadProject
  rw [read]

theorem makefileStage_congr (alike : Alike r t u) (cache : ComponentCache) :
    r.makefileStage u cache stamp = r.makefileStage t cache stamp := by
  have carriers : Loaded.fold (r.loadCarriers u) 0 Vendor.all =
      Loaded.fold (r.loadCarriers t) 0 Vendor.all :=
    Loaded.fold_congr (fun count v _ => by
      unfold loadCarriers
      simp only [Carrier.ofFile_congr (alike.carriers v)]) 0
  unfold makefileStage
  simp only [carriers, loadInterfaces_congr alike, loadLibraries_congr alike,
    loadProjects_congr alike]

/-! ### Caches that show the same -/

theorem loadManifest_views {p p' : ManifestProgress} (same : SameViews t p.cache cache)
    (same' : SameViews t p'.cache cache) (parsed : p.parsed = p'.parsed) (s : Vendor × Path) :
    (SameViews t (loadManifest r t p s).value.cache cache ∧
      SameViews t (loadManifest r t p' s).value.cache cache ∧
      (loadManifest r t p s).value.parsed = (loadManifest r t p' s).value.parsed) ∧
    (loadManifest r t p s).warnings = (loadManifest r t p' s).warnings := by
  obtain ⟨result, kept⟩ := ofFile_shown same r.root s.2
  obtain ⟨result', kept'⟩ := ofFile_shown same' r.root s.2
  have alike := result.trans result'.symm
  unfold loadManifest
  simp only
  generalize Manifest.ofFile t p.cache r.root s.2 = left at kept alike
  generalize Manifest.ofFile t p'.cache r.root s.2 = right at kept' alike
  obtain ⟨c, answer⟩ := left
  obtain ⟨c', answer'⟩ := right
  simp only at alike
  subst alike
  cases answer with
  | error cause => exact ⟨⟨kept, kept', parsed⟩, rfl⟩
  | ok accepted => exact ⟨⟨kept, kept', congrArg (· ++ _) parsed⟩, rfl⟩

theorem loadLibraries_views (same : SameViews t cache' cache) (interfaces : InterfaceIndex) :
    SameViews t (r.loadLibraries t cache' interfaces).value.1 cache ∧
      (r.loadLibraries t cache' interfaces).value.2 =
        (r.loadLibraries t cache interfaces).value.2 ∧
      (r.loadLibraries t cache' interfaces).warnings =
        (r.loadLibraries t cache interfaces).warnings := by
  obtain ⟨⟨kept, -, parsed⟩, warnings⟩ := @Loaded.fold_related _ _ _ (r.manifests t)
    (loadManifest r t) (loadManifest r t)
    (fun p p' => SameViews t p.cache cache ∧ SameViews t p'.cache cache ∧ p.parsed = p'.parsed)
    (fun p p' ⟨same, same', parsed⟩ s _ => loadManifest_views same same' parsed s)
    ⟨cache', []⟩ ⟨cache, []⟩ ⟨same, fun _ => rfl, rfl⟩
  unfold loadLibraries
  simp only [Loaded.andThen, parsed, warnings]
  exact ⟨kept, trivial, trivial⟩

/-- A stage depends on no more of the cache than what it shows, and leaves that as it was. -/
theorem makefileStage_views (same : SameViews t cache' cache) :
    SameViews t (r.makefileStage t cache' stamp).value.1 cache ∧
      (r.makefileStage t cache' stamp).value.2 = (r.makefileStage t cache stamp).value.2 ∧
      (r.makefileStage t cache' stamp).warnings = (r.makefileStage t cache stamp).warnings := by
  obtain ⟨kept, libraries, warnings⟩ :=
    @loadLibraries_views r t cache cache' same (r.loadInterfaces t).value
  unfold makefileStage
  simp only [Loaded.andThen, libraries, warnings]
  exact ⟨kept, trivial, trivial⟩

end Repository

end Gateware
