import Gateware.Proofs.Repository.Collisions
import Gateware.Proofs.Repository.Footprint

/-!
# Where the outputs go

Every output of a run has a place of its own below the root of the repository, in a directory that
is there or that the run makes below the test benches (`destined_of_produced`, `distinct_produced`).
-/

namespace Gateware

open Text

namespace Repository

open FileTree

variable {r : Repository} {config : GenerateConfig} {t : FileTree} {cache : ComponentCache}
  {R : Location} {root : Path} {names : List Text} {last : Text} {o : Output}

/-- The outputs of both stages. -/
def produced (r : Repository) (config : GenerateConfig) (t : FileTree) (cache : ComponentCache) :
    List Output :=
  (r.mapPart config t).value.outputs ++ (r.makefilePart config t cache).value.2.outputs

/-- Where an output goes: to a place that a run can make, over directories that are there or can be
made as well. -/
structure Destined (t : FileTree) (root : Path) (R : Location) (names : List Text) (last : Text)
    (o : Output) : Prop where
  below : Path.Below root (names ++ [last]) o.path
  made : Made (names ++ [last])
  way : ∀ front, front <+: names → Made front ∨ t.node? (R ++ front) = some .directory

/-- Outputs with different paths, however they are written. -/
def Distinct (outputs : List Output) : Prop :=
  outputs.Pairwise fun o o' => o.path.steps ≠ o'.path.steps

theorem Path.Below.names_eq {p q : Path} {names' : List Text} (h : Path.Below root names p)
    (h' : Path.Below root names' q) (same : p.steps = q.steps) : names = names' :=
  h.names_inj ⟨same.trans h'.steps, h.absolute⟩

/-! ### Packages -/

/-- The files about the maps of a table, by their names. -/
def mapFiles (maps : MapTable) (stamp : Stamp) : List RegisterMap.GeneratedFile :=
  maps.entries.flatMap (fun e => RegisterMap.outputs e.1 e.2 stamp) ++
    if maps.isEmpty then []
    else [⟨RegisterMap.programFile, RegisterMap.testProgram maps⟩,
      ⟨RegisterMap.scriptFile, RegisterMap.testScript maps⟩]

theorem mapOutputs_eq (maps : MapTable) (stamp : Stamp) :
    r.mapOutputs maps stamp = (mapFiles (maps.filter fun _ m => m.isResolved) stamp).map fun f =>
      r.packageOutput f.name f.lines := by
  unfold mapOutputs mapFiles
  simp only
  split
  · rw [List.append_nil, List.map_flatMap]
    rfl
  · rw [List.map_append, List.map_flatMap]
    rfl

theorem distinct_mapFiles (maps : MapTable) (stamp : Stamp) :
    (mapFiles maps stamp).Pairwise fun f f' => f.name ≠ f'.name := by
  have packages : (maps.entries.flatMap fun e => RegisterMap.outputs e.1 e.2 stamp).Pairwise
      fun f f' => f.name ≠ f'.name := by
    refine List.pairwise_flatMap.mpr
      ⟨fun e _ => ?_, maps.sorted.imp fun {e e'} less f hf f' hf' => ?_⟩
    · unfold RegisterMap.outputs
      refine List.pairwise_cons.mpr ⟨fun f hf => ?_, ?_⟩
      · obtain ⟨lines, -, rfl⟩ := Option.map_eq_some_iff.mp (Option.mem_toList.mp hf)
        exact RegisterMap.packageFile_ne_definitionsFile e.1 e.1
      · cases RegisterMap.macroLines? e.1 e.2 stamp with
        | none => exact .nil
        | some lines => exact List.pairwise_singleton _ _
    · have apart : e.1 ≠ e'.1 := by
        intro same
        rw [same, Key.irrefl] at less
        cases less
      rcases RegisterMap.mem_outputs.mp hf with rfl | ⟨lines, -, rfl⟩ <;>
        rcases RegisterMap.mem_outputs.mp hf' with rfl | ⟨lines', -, rfl⟩
      · exact fun same => apart (RegisterMap.packageFile_inj same)
      · exact RegisterMap.packageFile_ne_definitionsFile e.1 e'.1
      · exact (RegisterMap.packageFile_ne_definitionsFile e'.1 e.1).symm
      · exact fun same => apart (RegisterMap.definitionsFile_inj same)
  unfold mapFiles
  split
  · rwa [List.append_nil]
  · have test : RegisterMap.programFile ≠ RegisterMap.scriptFile := by decide
    refine List.pairwise_append.mpr ⟨packages, List.pairwise_pair.mpr test, fun f hf f' hf' => ?_⟩
    -- the names of packages and of the test begin with different letters
    have first : f.name.head? = some 'a' := by
      obtain ⟨e, -, output⟩ := List.mem_flatMap.mp hf
      rcases RegisterMap.mem_outputs.mp output with rfl | ⟨lines, -, rfl⟩
      · exact RegisterMap.head?_packageFile e.1
      · exact RegisterMap.head?_definitionsFile e.1
    have first' : f'.name.head? = some 't' := by
      rcases List.mem_pair.mp hf' with rfl | rfl <;> rfl
    intro same
    rw [same, first'] at first
    exact absurd first (by decide)

theorem plain_of_head {c : Char} {s : Text} (head : s.head? = some c) (first : c ≠ '.')
    (whole : Path.separator ∉ s) : PathPart.Plain s := by
  obtain ⟨rest, rfl⟩ := List.head?_eq_some_iff.mp head
  refine ⟨?_, whole⟩
  unfold PathPart.text PathPart.inner?
  rw [if_neg, if_neg]
  · exact fun up => first (List.cons.inj up).1
  · rintro (none | point)
    · cases none
    · exact first (List.cons.inj point).1

theorem plain_packageFile {key : Text} (closed : Path.separator ∉ key) :
    PathPart.Plain (RegisterMap.packageFile key) := by
  refine plain_of_head (RegisterMap.head?_packageFile key) (by decide) ?_
  unfold RegisterMap.packageFile
  simp only [List.mem_append, not_or]
  exact ⟨⟨by decide, closed⟩, by decide⟩

theorem plain_definitionsFile {key : Text} (closed : Path.separator ∉ key) :
    PathPart.Plain (RegisterMap.definitionsFile key) := by
  refine plain_of_head (RegisterMap.head?_definitionsFile key) (by decide) ?_
  unfold RegisterMap.definitionsFile
  simp only [List.mem_append, not_or]
  exact ⟨⟨by decide, closed⟩, by decide⟩

theorem plain_of_mem_mapFiles {stamp : Stamp} {f : RegisterMap.GeneratedFile}
    (h : f ∈ mapFiles (r.generatedMaps t) stamp) : PathPart.Plain f.name := by
  have program : PathPart.Plain RegisterMap.programFile := by decide
  have script : PathPart.Plain RegisterMap.scriptFile := by decide
  unfold mapFiles at h
  rcases List.mem_append.mp h with package | test
  · obtain ⟨e, he, output⟩ := List.mem_flatMap.mp package
    obtain ⟨name, key⟩ := name_of_mem_generatedMaps (List.mem_map_of_mem he)
    have closed : Path.separator ∉ e.1 := not_mem_mapKey? (by decide +kernel) key
    rcases RegisterMap.mem_outputs.mp output with rfl | ⟨lines, -, rfl⟩
    · exact plain_packageFile closed
    · exact plain_definitionsFile closed
  · split at test
    · cases test
    · rcases List.mem_pair.mp test with rfl | rfl
      · exact program
      · exact script

theorem below_packageDirectory (r : Repository) :
    Path.Below r.root [testbenchesName, libraryName, "regmaps"] r.packageDirectory :=
  ((below_testbenches r).join plain_libraryName).join (by decide)

theorem outputs_mapPart (r : Repository) (config : GenerateConfig) (t : FileTree) :
    (r.mapPart config t).value.outputs = [] ∨
      r.hasTestbenches t = true ∧ (r.mapPart config t).value.outputs =
        (mapFiles (r.generatedMaps t) config.stamp).map fun f => r.packageOutput f.name f.lines := by
  unfold mapPart
  split
  · by_cases there : r.hasTestbenches t = true
    · rw [value_mapStage there]
      exact .inr ⟨there, mapOutputs_eq _ _⟩
    · refine .inl ?_
      unfold mapStage
      simp [Loaded.andThen, there]
  · exact .inl rfl

theorem distinct_mapPart : Distinct (r.mapPart config t).value.outputs := by
  rcases outputs_mapPart r config t with none | ⟨-, outputs⟩
  · rw [none]
    exact .nil
  · rw [outputs]
    refine List.pairwise_map.mpr ((distinct_mapFiles _ _).imp_of_mem fun {f f'} hf hf' apart => ?_)
    change (r.packageDirectory.join f.name).steps ≠ (r.packageDirectory.join f'.name).steps
    rw [Path.steps_join_plain (plain_of_mem_mapFiles hf),
      Path.steps_join_plain (plain_of_mem_mapFiles hf')]
    intro same
    exact apart (PathPart.name.inj (List.cons.inj (List.append_cancel_left same)).1)

theorem destined_of_mapPart (leads : Leads t r.root R)
    (h : o ∈ (r.mapPart config t).value.outputs) :
    ∃ name, Destined t r.root R [testbenchesName, libraryName, "regmaps"] name o := by
  rcases outputs_mapPart r config t with none | ⟨there, outputs⟩
  · rw [none] at h
    cases h
  · rw [outputs] at h
    obtain ⟨f, hf, rfl⟩ := List.mem_map.mp h
    refine ⟨f.name, (below_packageDirectory r).join (plain_of_mem_mapFiles hf),
      .inl ⟨_, List.cons_ne_nil _ _, rfl⟩, fun front before => ?_⟩
    rcases List.prefix_cons_iff.mp before with rfl | ⟨rest, rfl, -⟩
    · rw [List.append_nil]
      exact .inr leads.directory
    · cases rest with
      | nil =>
        unfold hasTestbenches isDirectory at there
        split at there
        · rename_i l found
          obtain ⟨placed, directory⟩ := find_eq_ok.mp found
          rw [leads.place (below_testbenches r) placed] at directory
          exact .inr directory
        · cases there
      | cons n rest => exact .inl (.inl ⟨n :: rest, List.cons_ne_nil n rest, rfl⟩)

/-! ### Makefiles -/

/-- A table of libraries or projects by the names that lead to their directories. -/
def Placed {β : Type} (t : FileTree) (R : Location) (y : Text) (table : Table Text β) : Prop :=
  ∀ key ∈ table.keys, ∃ d, (∀ m ∈ d, PathPart.Plain m) ∧ key = joinWith [Path.separator] d ∧
    Furnished t R ([y] ++ d)

/-- The makefiles for what a table holds, each in its directory. -/
def makefilesOf {β : Type} (dir : Path) (lines : Text → β → List Text) (table : Table Text β) :
    List Output :=
  table.entries.map fun e => ⟨(dir.join e.1).join makefileName, lines e.1 e.2⟩

theorem below_makefile {dir : Path} {y : Text} {d : List Text} (below : Path.Below root [y] dir)
    (plain : ∀ m ∈ d, PathPart.Plain m) :
    Path.Below root ([y] ++ d ++ [makefileName])
      ((dir.join (joinWith [Path.separator] d)).join makefileName) :=
  (below.join_joinWith plain).join plain_makefileName

section

variable {β : Type} {table : Table Text β} {lines : Text → β → List Text} {dir : Path} {y : Text}

theorem destined_of_makefilesOf (below : Path.Below root [y] dir)
    (kind : y = libraryName ∨ y = projectsName) (placed : Placed t R y table)
    (h : o ∈ makefilesOf dir lines table) : ∃ d, Destined t root R (y :: d) makefileName o := by
  obtain ⟨e, he, rfl⟩ := List.mem_map.mp h
  obtain ⟨d, plain, key, furnished⟩ := placed e.1 (List.mem_map_of_mem he)
  refine ⟨d, ?_, .inr ⟨d, ?_⟩, fun front before => .inr (furnished front before)⟩
  · have stands := below_makefile below plain
    rw [← key] at stands
    exact stands
  · exact kind.imp (fun same => by rw [same]; rfl) fun same => by rw [same]; rfl

theorem distinct_makefilesOf (below : Path.Below root [y] dir) (placed : Placed t R y table) :
    Distinct (makefilesOf dir lines table) := by
  refine List.pairwise_map.mpr (table.sorted.imp_of_mem fun {e e'} he he' less same => ?_)
  obtain ⟨d, plain, key, -⟩ := placed e.1 (List.mem_map_of_mem he)
  obtain ⟨d', plain', key', -⟩ := placed e'.1 (List.mem_map_of_mem he')
  simp only [key, key'] at same
  have one := Path.Below.names_eq (below_makefile below plain) (below_makefile below plain') same
  have names : d = d' := List.append_cancel_left (List.append_cancel_right one)
  rw [key, key', names, Key.irrefl] at less
  cases less

end

theorem key_of_ofFile {root path : Path} {before after : ComponentCache} {m : ParsedManifest}
    {warnings : List ManifestWarning}
    (h : Manifest.ofFile t before root path = (after, .ok (m, warnings))) :
    ∃ inside, (path.parent?.getD ⟨[]⟩).after? (Manifest.directory root) = some inside ∧
      m.key = inside.toSlash := by
  unfold Manifest.ofFile Manifest.read at h
  simp only at h
  split at h
  · cases h
  · split at h
    · cases h
    · rename_i inside between
      split at h
      · cases h
      · cases h
        exact ⟨inside, between, rfl⟩

section

variable (sound : t.Sound) (leads : Leads t r.root R)

include sound leads

theorem placed_readLibraries (cache : ComponentCache) :
    Placed t R libraryName (r.readLibraries t cache) := by
  intro key hkey
  rw [readLibraries_eq] at hkey
  have parsed : key ∈ List.map ParsedManifest.key _ := (Table.mem_keys_foldl
    (fun _ _ _ => Table.mem_keys_place) hkey).resolve_left List.not_mem_nil
  obtain ⟨m, accepted, rfl⟩ := List.mem_map.mp parsed
  obtain ⟨e, he, rfl⟩ := List.mem_map.mp accepted
  obtain ⟨⟨s, hs, path⟩, before, after, warnings, read⟩ := mem_acceptedManifests he
  obtain ⟨d, n, -, source⟩ := source_of_manifest sound leads hs
  rw [path] at source
  obtain ⟨q, parent, above⟩ := source.below.parent
  obtain ⟨inside, between, key⟩ := key_of_ofFile read
  rw [parent, Option.getD_some] at between
  exact ⟨d, source.plain, key.trans
    (Path.toSlash_after between (below_libraryDirectory r) above source.plain), source.furnished⟩

theorem placed_readProjects : Placed t R projectsName (r.readProjects t) := by
  intro key hkey
  rw [readProjects_eq] at hkey
  obtain ⟨e, he, rfl⟩ := List.mem_map.mp ((Table.mem_keys_foldl
    (fun _ _ _ => Table.mem_keys_place) hkey).resolve_left List.not_mem_nil)
  obtain ⟨entry, hentry, accepted⟩ := List.mem_filterMap.mp he
  split at accepted
  · cases accepted
  · rename_i reading read
    cases accepted
    obtain ⟨d, n, -, source⟩ := source_of_projectEntry sound leads hentry
    obtain ⟨q, parent, above⟩ := source.below.parent
    obtain ⟨_, inside, -, between, rfl⟩ := Project.ofFile_eq_ok_iff.mp read
    rw [parent, Option.getD_some] at between
    exact ⟨d, source.plain, Path.toSlash_after between
      (below_projectDirectory r).normalize above.normalize source.plain, source.furnished⟩

end

theorem Placed.mapValues {β γ : Type} {y : Text} {table : Table Text β} (h : Placed t R y table)
    (f : Text → β → γ) : Placed t R y (table.mapValues f) := by
  intro key hkey
  refine h key ?_
  obtain ⟨e, he, rfl⟩ := List.mem_map.mp hkey
  obtain ⟨e', he', rfl⟩ := List.mem_map.mp he
  exact List.mem_map_of_mem he'

/-! ### All outputs -/

/-- The makefiles are those of a table of libraries and one of projects, each in its place. -/
theorem outputs_makefilePart (sound : t.Sound) (leads : Leads t r.root R) :
    ∃ (libraries : LibraryTable) (projects : ProjectTable),
      Placed t R libraryName libraries ∧ Placed t R projectsName projects ∧
      ((r.makefilePart config t cache).value.2.outputs = [] ∨
        (r.makefilePart config t cache).value.2.outputs =
          makefilesOf r.libraryDirectory (Makefile.ofLibrary · · config.stamp) libraries ++
            makefilesOf r.projectDirectory (Makefile.ofProject · · config.stamp) projects) := by
  let interfaces := (r.loadInterfaces t).value
  let libraries := (r.readLibraries t cache).resolve interfaces
  refine ⟨libraries, (r.readProjects t).resolve libraries,
    (placed_readLibraries sound leads cache).mapValues _,
    (placed_readProjects sound leads).mapValues _, ?_⟩
  unfold makefilePart
  split
  · exact .inr rfl
  · exact .inl rfl

/-- Paths that begin with different names below the root are different. -/
theorem steps_ne_of_head {p q : Path} {a b : Text} {names' : List Text}
    (h : Path.Below root (a :: names) p) (h' : Path.Below root (b :: names') q) (apart : a ≠ b) :
    p.steps ≠ q.steps := fun same => apart (List.cons.inj (Path.Below.names_eq h h' same)).1

theorem destined_of_produced (sound : t.Sound) (leads : Leads t r.root R)
    (h : o ∈ r.produced config t cache) : ∃ names last, Destined t r.root R names last o := by
  obtain ⟨libraries, projects, placed, placed', outputs⟩ :=
    @outputs_makefilePart r config t cache R sound leads
  rcases List.mem_append.mp h with map | makefile
  · obtain ⟨name, destined⟩ := destined_of_mapPart leads map
    exact ⟨_, name, destined⟩
  · rcases outputs with none | both
    · rw [none] at makefile
      cases makefile
    · rw [both] at makefile
      rcases List.mem_append.mp makefile with library | project
      · obtain ⟨d, destined⟩ :=
          destined_of_makefilesOf (below_libraryDirectory r) (.inl rfl) placed library
        exact ⟨_, _, destined⟩
      · obtain ⟨d, destined⟩ :=
          destined_of_makefilesOf (below_projectDirectory r) (.inr rfl) placed' project
        exact ⟨_, _, destined⟩

theorem distinct_produced (sound : t.Sound) (leads : Leads t r.root R) :
    Distinct (r.produced config t cache) := by
  obtain ⟨libraries, projects, placed, placed', outputs⟩ :=
    @outputs_makefilePart r config t cache R sound leads
  have library {o : Output} := @destined_of_makefilesOf t R r.root o _ libraries
    (Makefile.ofLibrary · · config.stamp) _ _ (below_libraryDirectory r) (.inl rfl) placed
  have project {o : Output} := @destined_of_makefilesOf t R r.root o _ projects
    (Makefile.ofProject · · config.stamp) _ _ (below_projectDirectory r) (.inr rfl) placed'
  unfold produced
  rcases outputs with none | both
  · rw [none, List.append_nil]
    exact distinct_mapPart
  rw [both]
  refine List.pairwise_append.mpr ⟨distinct_mapPart, List.pairwise_append.mpr
    ⟨distinct_makefilesOf (below_libraryDirectory r) placed,
      distinct_makefilesOf (below_projectDirectory r) placed', ?_⟩, ?_⟩
  · intro o ho o' ho'
    obtain ⟨d, destined⟩ := library ho
    obtain ⟨d', destined'⟩ := project ho'
    exact steps_ne_of_head destined.below destined'.below (by decide)
  · intro o ho o' ho'
    obtain ⟨name, destined⟩ := destined_of_mapPart leads ho
    rcases List.mem_append.mp ho' with ho' | ho'
    · obtain ⟨d, destined'⟩ := library ho'
      exact steps_ne_of_head destined.below destined'.below (by decide)
    · obtain ⟨d, destined'⟩ := project ho'
      exact steps_ne_of_head destined.below destined'.below (by decide)

/-! ### Roots that are not there -/

/-- What is found below the root is found in a directory. -/
theorem leads_of_place {p : Path} {l : Location} {n : Text} (below : Path.Below root (n :: names) p)
    (h : t.place p = .ok l) : ∃ R, Leads t root R := by
  have led := steps_of_place h
  rw [below.steps, start_of_absolute below.absolute, List.map_cons] at led
  obtain ⟨R, way, directory⟩ := directory_of_onward led
  exact ⟨R, way, directory⟩

theorem named_eq_nil {α : Type} {f : Text → Option α} {dir : Path} {n : Text}
    (nowhere : ∀ R, ¬ Leads t root R) (below : Path.Below root (n :: names) dir) :
    named t dir f = [] := by
  unfold named filesUnder
  split
  · rfl
  · rename_i base node found
    obtain ⟨R, leads⟩ := leads_of_place below (find_eq_ok.mp found).1
    exact absurd leads (nowhere R)

/-- Where there is no repository nothing is produced. -/
theorem produced_eq_nil (nowhere : ∀ R, ¬ Leads t r.root R) (config : GenerateConfig)
    (cache : ComponentCache) : (r.mapPart config t).value.outputs = [] ∧
      (r.makefilePart config t cache).value.2.outputs = [] := by
  constructor
  · rcases outputs_mapPart r config t with none | ⟨there, -⟩
    · exact none
    · unfold hasTestbenches isDirectory at there
      split at there
      · rename_i l found
        obtain ⟨R, leads⟩ := leads_of_place (below_testbenches r) (find_eq_ok.mp found).1
        exact absurd leads (nowhere R)
      · cases there
  · have manifests : r.manifests t = [] := named_eq_nil nowhere (below_libraryDirectory r)
    have entries : r.projectEntries t = [] := by
      unfold projectEntries
      rw [named_eq_nil nowhere (below_projectDirectory r)]
      rfl
    have libraries : r.readLibraries t cache = .empty := by
      rw [readLibraries_eq, manifests]
      rfl
    have projects : r.readProjects t = .empty := by
      unfold readProjects
      rw [entries]
      rfl
    unfold makefilePart
    split
    · change makefileOutputs r ((r.readLibraries t cache).resolve (r.loadInterfaces t).value)
        ((r.readProjects t).resolve _) config.stamp = []
      rw [libraries, projects]
      rfl
    · rfl

end Repository

end Gateware
