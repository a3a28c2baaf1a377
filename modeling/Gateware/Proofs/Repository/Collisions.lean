import Gateware.Proofs.Repository.Packages
import Gateware.Proofs.Repository.Run
import Mathlib.Data.List.Induction

/-!
# Sources that meet on a key

The maps are stored by the names of their files, manifests and projects by their directories, so
several sources can have one key. The last of them stays in the table and no warning tells of the
others: `noneDropped_iff` says that all sources are kept or told of exactly when those that meet on
a key agree.
-/

namespace Gateware

open Text

/-! ### The last input with a key -/

/-- Among the inputs, `b` is the last one with the key of `a`. -/
def Prevails {α κ : Type} (key : α → κ) (l : List α) (a b : α) : Prop :=
  key b = key a ∧ ∃ before after, l = before ++ b :: after ∧ ∀ c ∈ after, key c ≠ key a

section

variable {α κ β σ : Type} {key : α → κ} {val : α → β}

theorem exists_prevails {l : List α} {a : α} (h : a ∈ l) : ∃ b, Prevails key l a b := by
  induction l using List.reverseRecOn with
  | nil => cases h
  | append_singleton l x ih =>
    by_cases same : key x = key a
    · exact ⟨x, same, l, [], rfl, nofun⟩
    · have earlier : a ∈ l := by
        rcases List.mem_append.mp h with mem | last
        · exact mem
        · rw [List.mem_singleton.mp last] at same
          exact absurd rfl same
      obtain ⟨b, match', before, after, shape, none⟩ := ih earlier
      refine ⟨b, match', before, after ++ [x], by rw [shape, List.append_assoc, List.cons_append], ?_⟩
      intro c hc
      rcases List.mem_append.mp hc with mem | last
      · exact none c mem
      · rw [List.mem_singleton.mp last]
        exact same

/-- Each step of a fold stores the value of one input under its key. -/
structure Stores (get : σ → κ → Option β) (step : σ → α → σ) (key : α → κ) (val : α → β) : Prop where
  own (s : σ) (a : α) : get (step s a) (key a) = some (val a)
  others (s : σ) (a : α) (k : κ) : k ≠ key a → get (step s a) k = get s k

variable {get : σ → κ → Option β} {step : σ → α → σ}

theorem Stores.foldl_others (stores : Stores get step key val) {k : κ} {l : List α} (s : σ)
    (h : ∀ c ∈ l, key c ≠ k) : get (l.foldl step s) k = get s k := by
  induction l generalizing s with
  | nil => rfl
  | cons c l ih =>
    rw [List.foldl_cons, ih (step s c) fun d hd => h d (List.mem_cons_of_mem c hd)]
    exact stores.others s c k (h c List.mem_cons_self).symm

theorem Stores.foldl_prevails (stores : Stores get step key val) {l : List α} {a b : α}
    (h : Prevails key l a b) (s : σ) : get (l.foldl step s) (key a) = some (val b) := by
  obtain ⟨same, before, after, rfl, last⟩ := h
  rw [List.foldl_append, List.foldl_cons, stores.foldl_others _ last, ← same]
  exact stores.own _ b

/-- An input is kept exactly when the last one with its key has its value. -/
theorem Stores.kept_iff (stores : Stores get step key val) {l : List α} {a : α} (h : a ∈ l)
    (s : σ) : get (l.foldl step s) (key a) = some (val a) ↔
      ∀ b, Prevails key l a b → val b = val a := by
  constructor
  · intro kept b last
    rw [stores.foldl_prevails last] at kept
    exact Option.some.inj kept
  · intro agree
    obtain ⟨b, last⟩ : ∃ b, Prevails key l a b := exists_prevails h
    rw [stores.foldl_prevails last, agree b last]

end

theorem stores_insert {α κ β : Type} [Key κ] (key : α → κ) (val : α → β) :
    Stores Table.get? (fun (t : Table κ β) a => t.insert (key a) (val a)) key val where
  own t a := by rw [Table.get?_insert, if_pos (Key.same_iff.mpr rfl)]
  others t a k apart := by
    rw [Table.get?_insert, if_neg]
    rw [Key.same_iff]
    exact apart

namespace LibraryTable

/-- The manifest that a table holds for a library and a vendor. -/
def manifest? (t : LibraryTable) (k : Text × Vendor) : Option Manifest :=
  (t.get? k.1).bind (·.vendors.get? k.2)

theorem stores_add :
    Stores manifest? add (fun m => (m.key, m.vendor)) ParsedManifest.manifest where
  own t m := by
    unfold manifest? add
    rw [Table.get?_insert, if_pos (Key.same_iff.mpr rfl), Option.bind_some, Table.get?_insert,
      if_pos (Key.same_iff.mpr rfl)]
  others t m k apart := by
    obtain ⟨key, vendor⟩ := k
    unfold manifest? add
    simp only [Table.get?_insert, Key.same_iff]
    split
    · rename_i here
      subst here
      have other : vendor ≠ m.vendor := fun same => apart (by rw [same])
      rw [Option.bind_some, Table.get?_insert, if_neg (Key.same_iff.not.mpr other)]
      cases t.get? m.key with
      | none => rfl
      | some library => rfl
    · rfl

end LibraryTable

namespace Repository

variable {r : Repository} {t : FileTree} {cache : ComponentCache}

/-! ### What is accepted -/

/-- The manifests that are accepted, with their paths. Each reads its component from the cache as
those before it left it. -/
def acceptedManifests (r : Repository) (t : FileTree) :
    ComponentCache → List (Vendor × Path) → List (Path × ParsedManifest)
  | _, [] => []
  | cache, s :: rest =>
    match Manifest.ofFile t cache r.root s.2 with
    | (cache, .error _) => acceptedManifests r t cache rest
    | (cache, .ok (m, _)) => (s.2, m) :: acceptedManifests r t cache rest

def acceptedProjects (r : Repository) (t : FileTree) : List (Path × Project.Reading) :=
  (r.projectEntries t).filterMap fun path =>
    match Project.ofFile t r.root path with
    | .error _ => none
    | .ok reading => some (path, reading)

/-- The libraries as their manifests tell them, before any name is resolved. -/
def readLibraries (r : Repository) (t : FileTree) (cache : ComponentCache) : LibraryTable :=
  .collect (Loaded.fold (loadManifest r t) ⟨cache, []⟩ (r.manifests t)).value.parsed

/-- The projects as their scripts tell them, before any name is resolved. -/
def readProjects (r : Repository) (t : FileTree) : ProjectTable :=
  (Loaded.fold (loadProject r t (Closure.allTargets t)) .empty (r.projectEntries t)).value

theorem loadManifest_refused {p : ManifestProgress} {s : Vendor × Path} {cache' : ComponentCache}
    {cause : ManifestError} (h : Manifest.ofFile t p.cache r.root s.2 = (cache', .error cause)) :
    loadManifest r t p s =
      { value := ⟨cache', p.parsed⟩, warnings := [.manifestRefused s.2 cause] } := by
  unfold loadManifest
  simp only [h]

theorem value_loadManifest_accepted {p : ManifestProgress} {s : Vendor × Path}
    {cache' : ComponentCache} {m : ParsedManifest} {warnings : List ManifestWarning}
    (h : Manifest.ofFile t p.cache r.root s.2 = (cache', .ok (m, warnings))) :
    (loadManifest r t p s).value = ⟨cache', p.parsed ++ [m]⟩ := by
  unfold loadManifest
  simp only [h]

theorem parsed_loadManifest (parsed : List ParsedManifest) (l : List (Vendor × Path)) :
    (Loaded.fold (loadManifest r t) ⟨cache, parsed⟩ l).value.parsed =
      parsed ++ (r.acceptedManifests t cache l).map Prod.snd := by
  induction l generalizing cache parsed with
  | nil => exact (List.append_nil parsed).symm
  | cons s l ih =>
    unfold acceptedManifests
    rw [Loaded.fold_cons, Loaded.andThen]
    rcases read : Manifest.ofFile t cache r.root s.2 with ⟨cache', cause | ⟨m, warnings⟩⟩
    · rw [loadManifest_refused read]
      exact ih parsed
    · have next := value_loadManifest_accepted (p := ⟨cache, parsed⟩) read
      simp only [next]
      exact (ih (parsed ++ [m])).trans (List.append_assoc parsed [m] _)

theorem readLibraries_eq :
    r.readLibraries t cache =
      ((r.acceptedManifests t cache (r.manifests t)).map Prod.snd).foldl LibraryTable.add .empty := by
  unfold readLibraries LibraryTable.collect
  rw [parsed_loadManifest, List.nil_append]

theorem readProjects_eq :
    r.readProjects t = (r.acceptedProjects t).foldl
      (fun projects a => projects.insert a.2.key a.2.project) .empty := by
  unfold readProjects acceptedProjects
  rw [Loaded.value_fold, List.foldl_filterMap]
  congr 1
  funext projects path
  unfold loadProject Project.ofFile
  cases Project.ofEntry t (Closure.allTargets t) r.root path <;> rfl

theorem mem_acceptedManifests {e : Path × ParsedManifest} {l : List (Vendor × Path)}
    (h : e ∈ r.acceptedManifests t cache l) : (∃ s ∈ l, s.2 = e.1) ∧
      ∃ before after warnings, Manifest.ofFile t before r.root e.1 = (after, .ok (e.2, warnings)) := by
  induction l generalizing cache with
  | nil => cases h
  | cons s l ih =>
    unfold acceptedManifests at h
    split at h
    · obtain ⟨⟨s', hs, same⟩, accepted⟩ := ih h
      exact ⟨⟨s', List.mem_cons_of_mem s hs, same⟩, accepted⟩
    · rename_i after m warnings read
      rcases List.mem_cons.mp h with rfl | later
      · exact ⟨⟨s, List.mem_cons_self, rfl⟩, cache, after, warnings, read⟩
      · obtain ⟨⟨s', hs, same⟩, accepted⟩ := ih later
        exact ⟨⟨s', List.mem_cons_of_mem s hs, same⟩, accepted⟩

/-! ### What is told -/

/-- The source that a warning says is not used. -/
def unused? : RunWarning → Option Path
  | .registerMap path (.unread _) => some path
  | .manifestRefused path _ => some path
  | .projectRefused path _ => some path
  | _ => none

theorem unread_of_ofFile {path : Path} {cause : Script.Error}
    (h : .unread cause ∈ (RegisterMap.ofFile t path).2) : Script.ofFile t path = .error cause := by
  unfold RegisterMap.ofFile Script.readFile at h
  split at h
  · rename_i e failed
    cases List.mem_singleton.mp h
    exact failed
  · obtain ⟨x, -, same⟩ := List.mem_map.mp h
    cases same

theorem told_of_mapStage {stamp : Stamp} {w : RunWarning}
    (h : w ∈ (r.mapStage t stamp).warnings) :
    unused? w = none ∨
      ∃ path cause, Script.ofFile t path = .error cause ∧ w = .registerMap path (.unread cause) := by
  rw [warnings_mapStage, List.mem_append, List.mem_append] at h
  rcases h with read | imports | expansions
  · obtain ⟨maps, s, -, told⟩ := Loaded.mem_warnings_fold read
    obtain ⟨x, hx, rfl⟩ := List.mem_map.mp told
    cases x with
    | unread cause => exact .inr ⟨s.2, cause, unread_of_ofFile hx, rfl⟩
    | content x => exact .inl rfl
  · obtain ⟨x, -, rfl⟩ := List.mem_map.mp imports
    exact .inl rfl
  · obtain ⟨x, -, rfl⟩ := List.mem_map.mp expansions
    exact .inl rfl

theorem unread_mem_mapStage {stamp : Stamp} {s : Text × Path} (h : s ∈ r.mapSources t)
    {cause : Script.Error} (failed : Script.ofFile t s.2 = .error cause) :
    .registerMap s.2 (.unread cause) ∈ (r.mapStage t stamp).warnings := by
  rw [warnings_mapStage, List.mem_append]
  refine .inl (Loaded.mem_warnings_fold_of h fun maps => ?_)
  unfold loadMap RegisterMap.ofFile Script.readFile
  rw [failed]
  exact List.mem_singleton.mpr rfl

theorem told_of_loadManifest {p : ManifestProgress} {s : Vendor × Path} {w : RunWarning}
    (h : w ∈ (loadManifest r t p s).warnings) :
    unused? w = none ∨ ∃ after cause, Manifest.ofFile t p.cache r.root s.2 = (after, .error cause) ∧
      w = .manifestRefused s.2 cause := by
  rcases read : Manifest.ofFile t p.cache r.root s.2 with ⟨after, cause | ⟨m, warnings⟩⟩
  · rw [loadManifest_refused read] at h
    exact .inr ⟨after, cause, rfl, List.mem_singleton.mp h⟩
  · unfold loadManifest at h
    simp only [read] at h
    obtain ⟨x, -, rfl⟩ := List.mem_map.mp h
    exact .inl rfl

theorem told_of_loadProject {projects : ProjectTable} {path : Path} {w : RunWarning}
    (h : w ∈ (loadProject r t (Closure.allTargets t) projects path).warnings) :
    unused? w = none ∨
      ∃ cause, Project.ofFile t r.root path = .error cause ∧ w = .projectRefused path cause := by
  unfold loadProject at h
  unfold Project.ofFile
  split at h
  · rename_i cause refused
    exact .inr ⟨cause, refused, List.mem_singleton.mp h⟩
  · obtain ⟨x, -, rfl⟩ := List.mem_map.mp h
    exact .inl rfl

theorem told_of_makefileStage {stamp : Stamp} {w : RunWarning}
    (h : w ∈ (r.makefileStage t cache stamp).warnings) :
    unused? w = none ∨
      (∃ path before after cause, Manifest.ofFile t before r.root path = (after, .error cause) ∧
        w = .manifestRefused path cause) ∨
      ∃ path cause, Project.ofFile t r.root path = .error cause ∧ w = .projectRefused path cause := by
  unfold makefileStage loadInterfaces loadLibraries loadProjects at h
  simp only [Loaded.andThen, List.mem_append, List.append_nil] at h
  rcases h with boards | interfaces | (read | names) | projects
  · obtain ⟨count, v, -, told⟩ := Loaded.mem_warnings_fold boards
    obtain ⟨x, -, rfl⟩ := List.mem_map.mp told
    exact .inl rfl
  · obtain ⟨index, path, -, told⟩ := Loaded.mem_warnings_fold interfaces
    obtain ⟨x, -, rfl⟩ := List.mem_map.mp told
    exact .inl rfl
  · obtain ⟨p, s, -, told⟩ := Loaded.mem_warnings_fold read
    rcases told_of_loadManifest told with none | ⟨after, cause, refused, same⟩
    · exact .inl none
    · exact .inr (.inl ⟨s.2, p.cache, after, cause, refused, same⟩)
  · obtain ⟨x, -, rfl⟩ := List.mem_map.mp names
    exact .inl rfl
  · obtain ⟨before, path, -, told⟩ := Loaded.mem_warnings_fold projects
    rcases told_of_loadProject told with none | ⟨cause, refused, same⟩
    · exact .inl none
    · exact .inr (.inr ⟨path, cause, refused, same⟩)

/-- Whether a manifest is refused does not depend on the components. -/
theorem refused_any {path : Path} {cause : ManifestError} {before after : ComponentCache}
    (h : Manifest.ofFile t before r.root path = (after, .error cause)) (cache : ComponentCache) :
    ∃ after', Manifest.ofFile t cache r.root path = (after', .error cause) := by
  unfold Manifest.ofFile Manifest.read at h ⊢
  simp only at h ⊢
  split at h
  · cases h
    exact ⟨_, rfl⟩
  · split at h
    · cases h
      exact ⟨_, rfl⟩
    · split at h
      · cases h
        exact ⟨_, rfl⟩
      · cases h

theorem accepted_not_refused {stamp : Stamp} {e : Path × ParsedManifest} {cause : ManifestError}
    (h : e ∈ r.acceptedManifests t cache (r.manifests t)) :
    .manifestRefused e.1 cause ∉ (r.makefileStage t cache stamp).warnings := by
  intro told
  rcases told_of_makefileStage told with none | ⟨path, before, after, cause', refused, same⟩ |
    ⟨path, cause', refused, same⟩
  · cases none
  · cases same
    obtain ⟨-, cache', after', warnings, accepted⟩ := mem_acceptedManifests h
    obtain ⟨after'', refused⟩ := refused_any refused cache'
    rw [accepted] at refused
    cases refused
  · cases same

theorem accepted_project_not_refused {stamp : Stamp} {e : Path × Project.Reading}
    {cause : ManifestError} (h : e ∈ r.acceptedProjects t) :
    .projectRefused e.1 cause ∉ (r.makefileStage t cache stamp).warnings := by
  intro told
  rcases told_of_makefileStage told with none | ⟨path, before, after, cause', refused, same⟩ |
    ⟨path, cause', refused, same⟩
  · cases none
  · cases same
  · cases same
    obtain ⟨path, -, accepted⟩ := List.mem_filterMap.mp h
    split at accepted
    · cases accepted
    · rename_i reading read
      cases accepted
      rw [read] at refused
      cases refused

/-! ### Sources that are kept or told of -/

/-- Every source of a map is the one stored under its key, before imports are resolved, or a warning
says that it is not used. -/
def MapsKept (r : Repository) (t : FileTree) (warnings : List RunWarning) : Prop :=
  ∀ s ∈ r.mapSources t, (r.readMaps t).get? s.1 = some (RegisterMap.ofFile t s.2).1 ∨
    ∃ cause, .registerMap s.2 (.unread cause) ∈ warnings

def ManifestsKept (r : Repository) (t : FileTree) (cache : ComponentCache)
    (warnings : List RunWarning) : Prop :=
  ∀ e ∈ r.acceptedManifests t cache (r.manifests t),
    (r.readLibraries t cache).manifest? (e.2.key, e.2.vendor) = some e.2.manifest ∨
      ∃ cause, .manifestRefused e.1 cause ∈ warnings

def ProjectsKept (r : Repository) (t : FileTree) (warnings : List RunWarning) : Prop :=
  ∀ e ∈ r.acceptedProjects t, (r.readProjects t).get? e.2.key = some e.2.project ∨
    ∃ cause, .projectRefused e.1 cause ∈ warnings

/-- Nothing that is accepted is dropped silently. The stage of the makefiles reads the tree `u`. -/
structure NoneDropped (r : Repository) (t u : FileTree) (cache : ComponentCache)
    (warnings : List RunWarning) : Prop where
  maps : r.MapsKept t warnings
  manifests : r.ManifestsKept u cache warnings
  projects : r.ProjectsKept u warnings

/-- No source has the key of a later one that tells something else; a map that cannot be read may. -/
structure Unrivalled (r : Repository) (t u : FileTree) (cache : ComponentCache) : Prop where
  maps : ∀ s ∈ r.mapSources t, ∀ last, Prevails Prod.fst (r.mapSources t) s last →
    (RegisterMap.ofFile t last.2).1 = (RegisterMap.ofFile t s.2).1 ∨
      ∃ cause, Script.ofFile t s.2 = .error cause
  manifests : ∀ e ∈ r.acceptedManifests u cache (r.manifests u), ∀ last,
    Prevails (fun e => (e.2.key, e.2.vendor)) (r.acceptedManifests u cache (r.manifests u)) e last →
      last.2.manifest = e.2.manifest
  projects : ∀ e ∈ r.acceptedProjects u, ∀ last,
    Prevails (fun e => e.2.key) (r.acceptedProjects u) e last → last.2.project = e.2.project

section

variable {config : GenerateConfig} {time : Timestamp} {u : FileTree} {report : Report}

theorem kept_map_iff {s : Text × Path} (h : s ∈ r.mapSources t) :
    (r.readMaps t).get? s.1 = some (RegisterMap.ofFile t s.2).1 ↔
      ∀ last, Prevails Prod.fst (r.mapSources t) s last →
        (RegisterMap.ofFile t last.2).1 = (RegisterMap.ofFile t s.2).1 :=
  (stores_insert Prod.fst fun s : Text × Path => (RegisterMap.ofFile t s.2).1).kept_iff h .empty

theorem kept_manifest_iff {e : Path × ParsedManifest}
    (h : e ∈ r.acceptedManifests t cache (r.manifests t)) :
    (r.readLibraries t cache).manifest? (e.2.key, e.2.vendor) = some e.2.manifest ↔
      ∀ last, Prevails (fun e => (e.2.key, e.2.vendor))
        (r.acceptedManifests t cache (r.manifests t)) e last → last.2.manifest = e.2.manifest := by
  have stores : Stores LibraryTable.manifest?
      (fun table (e : Path × ParsedManifest) => table.add e.2) (fun e => (e.2.key, e.2.vendor))
      (fun e => e.2.manifest) :=
    ⟨fun table e => LibraryTable.stores_add.own table e.2,
      fun table e => LibraryTable.stores_add.others table e.2⟩
  rw [readLibraries_eq, List.foldl_map]
  exact stores.kept_iff h .empty

theorem kept_project_iff {e : Path × Project.Reading} (h : e ∈ r.acceptedProjects t) :
    (r.readProjects t).get? e.2.key = some e.2.project ↔
      ∀ last, Prevails (fun e => e.2.key) (r.acceptedProjects t) e last →
        last.2.project = e.2.project := by
  rw [readProjects_eq]
  exact (stores_insert (fun e : Path × Project.Reading => e.2.key) fun e => e.2.project).kept_iff h
    .empty

/-- For every run over every tree: the sources are all kept or told of exactly when the last one of
each key agrees with the others. So a source that is replaced by another one is never told of. -/
theorem noneDropped_iff (maps : config.registerMaps = true) (makefiles : config.makefiles = true)
    (h : (r.generate config time t cache).result = .ok report) :
    r.NoneDropped t (r.between config time t) cache report.warnings ↔
      r.Unrivalled t (r.between config time t) cache := by
  have told : report.warnings = (r.mapStage t config.stamp).warnings ++
      (r.makefileStage (r.between config time t) cache config.stamp).warnings := by
    have done := (completes_of_ok h).result
    unfold mapPart makefilePart at done
    rw [maps, makefiles, h] at done
    rw [Except.ok.inj done]
    rfl
  have unread {s : Text × Path} (hs : s ∈ r.mapSources t) {cause : Script.Error} :
      .registerMap s.2 (.unread cause) ∈ report.warnings ↔ Script.ofFile t s.2 = .error cause := by
    rw [told, List.mem_append]
    refine ⟨?_, fun failed => .inl (unread_mem_mapStage hs failed)⟩
    rintro (first | second)
    · rcases told_of_mapStage first with none | ⟨path, cause', failed, same⟩
      · cases none
      · cases same
        exact failed
    · rcases told_of_makefileStage second with none | ⟨_, _, _, _, -, same⟩ | ⟨_, _, -, same⟩
      · cases none
      · cases same
      · cases same
  have manifest {e : Path × ParsedManifest} (he : e ∈ r.acceptedManifests (r.between config time t)
      cache (r.manifests (r.between config time t))) :
      ¬ ∃ cause, .manifestRefused e.1 cause ∈ report.warnings := by
    rintro ⟨cause, mem⟩
    rw [told, List.mem_append] at mem
    rcases mem with first | second
    · rcases told_of_mapStage first with none | ⟨_, _, -, same⟩
      · cases none
      · cases same
    · exact accepted_not_refused he second
  have project {e : Path × Project.Reading}
      (he : e ∈ r.acceptedProjects (r.between config time t)) :
      ¬ ∃ cause, .projectRefused e.1 cause ∈ report.warnings := by
    rintro ⟨cause, mem⟩
    rw [told, List.mem_append] at mem
    rcases mem with first | second
    · rcases told_of_mapStage first with none | ⟨_, _, -, same⟩
      · cases none
      · cases same
    · exact accepted_project_not_refused he second
  constructor
  · intro none
    refine ⟨fun s hs last prevails => ?_, fun e he => ?_, fun e he => ?_⟩
    · rcases none.maps s hs with kept | ⟨cause, mem⟩
      · exact .inl ((kept_map_iff hs).mp kept last prevails)
      · exact .inr ⟨cause, (unread hs).mp mem⟩
    · exact (kept_manifest_iff he).mp ((none.manifests e he).resolve_right (manifest he))
    · exact (kept_project_iff he).mp ((none.projects e he).resolve_right (project he))
  · intro alone
    refine ⟨fun s hs => ?_, fun e he => ?_, fun e he => ?_⟩
    · by_cases failed : ∃ cause, Script.ofFile t s.2 = .error cause
      · obtain ⟨cause, failed⟩ := failed
        exact .inr ⟨cause, (unread hs).mpr failed⟩
      · exact .inl ((kept_map_iff hs).mpr fun last prevails =>
          (alone.maps s hs last prevails).resolve_right failed)
    · exact .inl ((kept_manifest_iff he).mpr (alone.manifests e he))
    · exact .inl ((kept_project_iff he).mpr (alone.projects e he))

def dryConfig : GenerateConfig := { write := false, stamp := ⟨"1.0", "2024-01-01", 2024⟩ }

theorem noneDropped_iff_mixedTree :
    ∃ report, (mixedRepository.generate dryConfig ⟨0, 0⟩ mixedTree {}).result = .ok report ∧
      (mixedRepository.NoneDropped mixedTree (mixedRepository.between dryConfig ⟨0, 0⟩ mixedTree) {}
          report.warnings ↔
        mixedRepository.Unrivalled mixedTree (mixedRepository.between dryConfig ⟨0, 0⟩ mixedTree)
          {}) :=
  ⟨_, (generate_dry rfl).2.2, noneDropped_iff rfl rfl (generate_dry rfl).2.2⟩

end

/-- Two maps with one file name, two manifests of one vendor and two project entries, each in one
directory. -/
def collidingTree : FileTree where
  nodes := .ofList [
    (List.map String.toList ["docs"], .directory),
    (List.map String.toList ["docs", "regmap"], .directory),
    (List.map String.toList ["docs", "regmap", "a"], .directory),
    (List.map String.toList ["docs", "regmap", "a", "adi_regmap_core.txt"], .file (some
      "TITLE\nFirst\nfirst\nENDTITLE\n") ⟨0, 0⟩),
    (List.map String.toList ["docs", "regmap", "b"], .directory),
    (List.map String.toList ["docs", "regmap", "b", "adi_regmap_core.txt"], .file (some
      "TITLE\nSecond\nsecond\nENDTITLE\n") ⟨0, 0⟩),
    (List.map String.toList ["library"], .directory),
    (List.map String.toList ["library", "core"], .directory),
    (List.map String.toList ["library", "core", "core_ip.tcl"], .file (some
      "adi_ip_files core [list first.v]\n") ⟨0, 0⟩),
    (List.map String.toList ["library", "core", "extra_ip.tcl"], .file (some
      "adi_ip_files core [list second.v]\n") ⟨0, 0⟩),
    (List.map String.toList ["projects"], .directory),
    (List.map String.toList ["projects", "dev"], .directory),
    (List.map String.toList ["projects", "dev", "system_bd.tcl"], .file (some
      "ad_ip_instance core first\n") ⟨0, 0⟩),
    (List.map String.toList ["projects", "dev", "system_qsys.tcl"], .file (some
      "add_instance first core\n") ⟨0, 0⟩)]

theorem ofFile_vendor {entry inside : Path} {v : Vendor}
    (named : Vendor.ofProjectEntry? (entry.fileName?.getD []) = some v)
    (placed : (entry.parent?.getD ⟨[]⟩).normalize.after? (Project.directory r.root).normalize =
      some inside) :
    ∃ reading, Project.ofFile t r.root entry = .ok reading ∧ reading.key = inside.toSlash ∧
      reading.project.vendor = v :=
  ⟨_, Project.ofFile_eq_ok_iff.mpr ⟨v, inside, named, placed, rfl⟩, rfl, rfl⟩

def firstManifest : Path × ParsedManifest :=
  (mixedRepository.acceptedManifests collidingTree {}
    (mixedRepository.manifests collidingTree)).head (by decide +kernel)

theorem mem_firstManifest : firstManifest ∈ mixedRepository.acceptedManifests collidingTree {}
    (mixedRepository.manifests collidingTree) := List.head_mem _

theorem not_noneDropped_collidingTree :
    ∃ report, (mixedRepository.generate dryConfig ⟨0, 0⟩ collidingTree {}).result = .ok report ∧
      ¬ mixedRepository.MapsKept collidingTree report.warnings ∧
      ¬ mixedRepository.ManifestsKept collidingTree {} report.warnings ∧
      ¬ mixedRepository.ProjectsKept collidingTree report.warnings := by
  have told {w : RunWarning}
      (h : w ∈ (mixedRepository.mapStage collidingTree dryConfig.stamp).warnings ++
        (mixedRepository.makefileStage collidingTree {} dryConfig.stamp).warnings) :
      w ∈ (mixedRepository.makefileStage collidingTree {} dryConfig.stamp).warnings := by
    have none : (mixedRepository.mapStage collidingTree dryConfig.stamp).warnings = [] := by
      decide +kernel
    rwa [none, List.nil_append] at h
  refine ⟨_, (generate_dry rfl).2.2, fun kept => ?_, fun kept => ?_, fun kept => ?_⟩
  · have source : ("core".toList, ⟨"./docs/regmap/a/adi_regmap_core.txt"⟩) ∈
        mixedRepository.mapSources collidingTree := by decide +kernel
    rcases kept _ source with same | ⟨cause, mem⟩
    · exact absurd same (by decide +kernel)
    · rcases told_of_makefileStage (told mem) with none | ⟨_, _, _, _, -, same⟩ | ⟨_, _, -, same⟩
      · cases none
      · cases same
      · cases same
  · rcases kept _ mem_firstManifest with same | ⟨cause, mem⟩
    · exact absurd same (by decide +kernel)
    · exact accepted_not_refused mem_firstManifest (told mem)
  · have entries : mixedRepository.projectEntries collidingTree =
        [⟨"./projects/dev/system_bd.tcl"⟩, ⟨"./projects/dev/system_qsys.tcl"⟩] := by decide +kernel
    obtain ⟨first, read, key, vendor⟩ : ∃ reading, Project.ofFile collidingTree mixedRepository.root
        ⟨"./projects/dev/system_bd.tcl"⟩ = .ok reading ∧ reading.key = Path.toSlash ⟨"dev"⟩ ∧
          reading.project.vendor = .xilinx := ofFile_vendor (by decide +kernel) (by decide +kernel)
    obtain ⟨last, read', key', vendor'⟩ : ∃ reading, Project.ofFile collidingTree
        mixedRepository.root ⟨"./projects/dev/system_qsys.tcl"⟩ = .ok reading ∧
          reading.key = Path.toSlash ⟨"dev"⟩ ∧ reading.project.vendor = .intel :=
      ofFile_vendor (by decide +kernel) (by decide +kernel)
    have accepted : mixedRepository.acceptedProjects collidingTree =
        [(⟨"./projects/dev/system_bd.tcl"⟩, first), (⟨"./projects/dev/system_qsys.tcl"⟩, last)] := by
      unfold acceptedProjects
      rw [entries]
      simp only [List.filterMap, read, read']
    have mem : (⟨"./projects/dev/system_bd.tcl"⟩, first) ∈
        mixedRepository.acceptedProjects collidingTree := by
      rw [accepted]
      exact List.mem_cons_self
    rcases kept _ mem with same | ⟨cause, told'⟩
    · have prevails : Prevails (fun e => e.2.key) (mixedRepository.acceptedProjects collidingTree)
          (⟨"./projects/dev/system_bd.tcl"⟩, first) (⟨"./projects/dev/system_qsys.tcl"⟩, last) :=
        ⟨key'.trans key.symm, [_], [], accepted, nofun⟩
      have one := congrArg Project.vendor ((kept_project_iff mem).mp same _ prevails)
      rw [vendor, vendor'] at one
      cases one
    · exact accepted_project_not_refused mem (told told')

end Repository

end Gateware
