import Gateware.Proofs.Repository.Emission
import Gateware.Proofs.Repository.Outputs

/-!
# What a dry run tells

The maps are written before the sources of the libraries and projects are read, and all outputs go
into the directories that are searched for sources. `dryRun_foretells` states that this makes no
difference as long as no file refers to what is generated: a dry run reports what the run reports,
the run changes what it reports and nothing else, and doing it again changes nothing.
-/

namespace Gateware

open Text FileTree

namespace GenerateConfig

def dry (config : GenerateConfig) : GenerateConfig := { config with write := false }

def wet (config : GenerateConfig) : GenerateConfig := { config with write := true }

end GenerateConfig

namespace Repository

variable {r : Repository} {config : GenerateConfig} {time time' : Timestamp} {t u v : FileTree}
  {cache cache' : ComponentCache} {report : Report} {R : Location}

/-- A place that a run generated: a file of its report stands there, or the tree has changed there,
as it does where a directory is made for such a file. -/
def Outcome.Generated (outcome : Outcome) (t : FileTree) (report : Report) (l : Location) : Prop :=
  outcome.tree.node? l ≠ t.node? l ∨ ∃ p ∈ report.written, outcome.tree.place p = .ok l

/-- What the dry run, the run and a second one have to do with each other. -/
structure Foretells (r : Repository) (config : GenerateConfig) (time : Timestamp) (t : FileTree)
    (cache : ComponentCache) (report : Report) : Prop where
  leaves : (r.generate config.dry time t cache).tree = t
  reports : (r.generate config.dry time t cache).result = .ok report
  keeps : (r.generate config.dry time t cache).cache = (r.generate config.wet time t cache).cache
  listed : report.written = (r.produced config t cache).map Output.path
  holds : ∀ o ∈ r.produced config t cache,
    (r.generate config.wet time t cache).tree.read o.path = .ok (unlines o.lines)
  /-- Nothing but the listed files is changed; directories can be new where nothing was. -/
  frame : ∀ l, (r.generate config.wet time t cache).tree.node? l = t.node? l ∨
    (∃ p ∈ report.written, (r.generate config.wet time t cache).tree.place p = .ok l) ∨
    t.node? l = none ∧ (r.generate config.wet time t cache).tree.node? l = some .directory
  /-- A second run, at any time, with the components of the first one or those from before it. -/
  again : ∀ time' cache',
    cache' = cache ∨ cache' = (r.generate config.wet time t cache).cache →
    let first := (r.generate config.wet time t cache).tree
    let second := r.generate config.wet time' first cache'
    second.result = .ok report ∧ SameTexts first second.tree ∧
      (∀ l, second.tree.node? l = first.node? l ∨ ∃ p ∈ report.written, first.place p = .ok l) ∧
      (time' = time → second.tree = first)

/-! ### Parts of a run -/

theorem mapPart_congr (alike : Alike r t u) : r.mapPart config u = r.mapPart config t := by
  unfold mapPart
  rw [mapStage_congr alike]

theorem makefilePart_congr (alike : Alike r t u) (cache : ComponentCache) :
    r.makefilePart config u cache = r.makefilePart config t cache := by
  unfold makefilePart
  rw [makefileStage_congr alike]

open ComponentCache in
theorem makefilePart_views (same : SameViews t cache' cache) :
    SameViews t (r.makefilePart config t cache').value.1 cache ∧
      (r.makefilePart config t cache').value.2 = (r.makefilePart config t cache).value.2 ∧
      (r.makefilePart config t cache').warnings = (r.makefilePart config t cache).warnings := by
  unfold makefilePart
  split
  · exact makefileStage_views same
  · exact ⟨same, rfl, rfl⟩

/-- The tree with the packages written. -/
def afterMaps (r : Repository) (config : GenerateConfig) (time : Timestamp) (t : FileTree) :
    FileTree := (Output.writeAll time t (r.mapPart config t).value.outputs).1

/-- A run on the tree `u` that finds what is in the tree `t`, as if all that it produces were
written at once. -/
structure Writes (r : Repository) (config : GenerateConfig) (time : Timestamp) (t u : FileTree)
    (cache : ComponentCache) (outcome : Outcome) : Prop where
  done : (Output.writeAll time u (r.produced config t cache)).2.2 = none
  tree : outcome.tree = (Output.writeAll time u (r.produced config t cache)).1
  components : outcome.cache = (r.makefilePart config t cache).value.1
  result : outcome.result = .ok (reportOf (r.mapPart config t) (r.makefilePart config t cache))

/-- It does not matter that the packages are written before the rest is read, if that is the same
then. -/
theorem writes_of_completes (before : Alike r t u) (between : Alike r t (r.afterMaps config time u))
    (done : r.Completes config.wet time u cache (r.generate config.wet time u cache)) :
    r.Writes config time t u cache (r.generate config.wet time u cache) := by
  obtain ⟨maps, makefiles, tree, components, result⟩ := done
  have first : r.mapPart config.wet u = r.mapPart config t := mapPart_congr before
  have second : r.makefilePart config.wet (r.between config.wet time u) cache =
      r.makefilePart config t cache := makefilePart_congr between cache
  have here : r.between config.wet time u =
      (Output.writeAll time u (r.mapPart config t).value.outputs).1 := by
    unfold Repository.between
    rw [first]
    rfl
  rw [first] at maps result
  rw [second, here] at makefiles tree
  rw [second] at components result
  have whole : Output.writeAll time u (r.produced config t cache) = _ := Output.writeAll_append maps
  refine ⟨?_, ?_, components, result⟩
  · rw [whole]
    exact makefiles
  · rw [whole]
    exact tree

open ComponentCache in
/-- A run on a tree in which its outputs stand already. -/
theorem writes_again (before : Alike r t u) (between : Alike r t (r.afterMaps config time' u))
    (views : SameViews t cache' cache)
    (holds : ∀ o ∈ r.produced config t cache, ∃ time, o.Holds time u) :
    r.Writes config time' t u cache' (r.generate config.wet time' u cache') := by
  have first : r.mapPart config.wet u = r.mapPart config t := mapPart_congr before
  have second : r.makefilePart config.wet (r.between config.wet time' u) cache' =
      r.makefilePart config t cache' := makefilePart_congr between cache'
  obtain ⟨-, stage, -⟩ := @makefilePart_views r config t cache cache' views
  obtain ⟨maps, rewrites⟩ := @Output.writeAll_again u time' (r.mapPart config t).value.outputs
    fun o ho => holds o (List.mem_append_left _ ho)
  have here : r.between config.wet time' u =
      (Output.writeAll time' u (r.mapPart config t).value.outputs).1 := by
    unfold Repository.between
    rw [first]
    rfl
  refine writes_of_completes before between (completes_of_failures ?_ ?_)
  · rw [first]
    exact maps
  · rw [second, stage, here]
    refine (Output.writeAll_again fun o ho => ?_).1
    obtain ⟨time, held⟩ := holds o (List.mem_append_right _ ho)
    exact held.of_sameTexts rewrites.same

/-! ### The places of a run -/

/-- What outputs with places of their own change is what a run can make. -/
theorem changes_of_covers {outputs : List Output} (leads : Leads t r.root R)
    (destined : ∀ o ∈ outputs, ∃ names last, Destined t r.root R names last o)
    (covers : Output.Covers r.root R outputs t v)
    (holds : ∀ o ∈ outputs, ∃ time, o.Holds time v) : Changes t v R where
  here := covers.grows.here
  place l differs := by
    rcases covers.rest l with same | ⟨o, ho, placed⟩ | ⟨none, -, o, ho, names, below, way⟩
    · exact absurd same differs
    · obtain ⟨names, last, destination⟩ := destined o ho
      obtain ⟨time, l', held⟩ := holds o ho
      obtain rfl := Except.ok.inj (held.place.symm.trans placed)
      refine ⟨fun directory => ?_, _, destination.made,
        (covers.grows.leads leads).place destination.below placed⟩
      have stays := covers.grows.directory l' directory
      rw [held.node] at stays
      cases stays
    · obtain ⟨front, before, rfl⟩ := way
      obtain ⟨names', last, destination⟩ := destined o ho
      obtain rfl := below.names_inj destination.below
      refine ⟨by rw [none]; nofun, front, ?_, rfl⟩
      rcases List.prefix_concat_iff.mp before with rfl | above
      · exact destination.made
      · refine (destination.way front above).resolve_right fun directory => ?_
        rw [none] at directory
        cases directory

/-- What outputs of a run change is generated by the run. -/
theorem generated_of_covers {outputs : List Output} {outcome : Outcome} {l : Location}
    (covers : Output.Covers r.root R outputs t v) (grows : Grows v outcome.tree)
    (told : ∀ o ∈ outputs, o.path ∈ report.written) (differs : v.node? l ≠ t.node? l) :
    outcome.Generated t report l := by
  rcases covers.rest l with same | ⟨o, ho, placed⟩ | ⟨none, directory, -⟩
  · exact absurd same differs
  · exact .inr ⟨o.path, told o ho, grows.place placed⟩
  · refine .inl fun same => ?_
    rw [grows.directory l directory, none] at same
    cases same

theorem Alike.refl (r : Repository) (t : FileTree) : Alike r t t where
  mapSources := rfl
  interfaceScripts := rfl
  manifests := rfl
  projectEntries := rfl
  testbenches := rfl
  carriers _ := rfl
  map _ _ := rfl
  interface _ _ := rfl
  manifest _ _ := ⟨rfl, rfl⟩
  project _ _ := ⟨rfl, rfl, rfl⟩
  reference _ _ := rfl

/-- The trees of a run and of a second one, which look like the first tree to a run. -/
structure Undisturbed (r : Repository) (config : GenerateConfig) (time : Timestamp) (t : FileTree)
    (cache : ComponentCache) (outcome : Outcome) : Prop where
  between : Alike r t (r.afterMaps config time t)
  after : Alike r t outcome.tree
  again : ∀ time', Alike r t (r.afterMaps config time' outcome.tree)
  holds : ∀ o ∈ r.produced config t cache, o.Holds time outcome.tree
  frame : ∀ l, outcome.tree.node? l = t.node? l ∨
    (∃ o ∈ r.produced config t cache, outcome.tree.place o.path = .ok l) ∨
    t.node? l = none ∧ outcome.tree.node? l = some .directory

open ComponentCache in
theorem foretells_of_undisturbed (writes : (r.generate config.wet time t cache).result = .ok report)
    (undisturbed : r.Undisturbed config time t cache (r.generate config.wet time t cache)) :
    r.Foretells config time t cache report := by
  have run := writes_of_completes (Alike.refl r t) undisturbed.between (completes_of_ok writes)
  obtain ⟨leaves, components, reports⟩ :=
    @generate_dry r config.dry time t cache rfl
  have told : report = reportOf (r.mapPart config t) (r.makefilePart config t cache) :=
    Except.ok.inj (writes.symm.trans run.result)
  have listed : report.written = (r.produced config t cache).map Output.path := by
    rw [told]
    unfold produced
    rw [List.map_append]
    rfl
  refine ⟨leaves, reports.trans (congrArg _ told.symm), components.trans run.components.symm,
    listed, fun o ho => (undisturbed.holds o ho).read, fun l => ?_, fun time' cache' known => ?_⟩
  · refine (undisturbed.frame l).imp_right (Or.imp_left fun ⟨o, ho, placed⟩ => ?_)
    rw [listed]
    exact ⟨o.path, List.mem_map_of_mem ho, placed⟩
  · have views : SameViews t cache' cache := by
      rcases known with rfl | rfl
      · exact fun _ => rfl
      · rw [run.components]
        exact (makefilePart_views fun _ => rfl).1
    obtain ⟨-, stage, warnings⟩ := @makefilePart_views r config t cache cache' views
    have same : r.produced config t cache' = r.produced config t cache := by
      unfold produced
      rw [stage]
    have holds : ∀ o ∈ r.produced config t cache, ∃ written,
        o.Holds written (r.generate config.wet time t cache).tree :=
      fun o ho => ⟨time, undisturbed.holds o ho⟩
    have second := writes_again undisturbed.after (undisturbed.again time') views holds
    obtain ⟨-, rewrites⟩ := @Output.writeAll_again _ time' _ holds
    intro first outcome
    have tree : outcome.tree = (Output.writeAll time' first (r.produced config t cache)).1 := by
      rw [← same]
      exact second.tree
    refine ⟨second.result.trans ?_, ?_, fun l => ?_, ?_⟩
    · rw [told]
      unfold reportOf
      rw [stage, warnings]
    · rw [tree]
      exact rewrites.same
    · rw [tree, listed]
      refine (rewrites.rest l).imp_right fun ⟨o, ho, placed⟩ => ?_
      exact ⟨o.path, List.mem_map_of_mem ho, placed⟩
    · rintro rfl
      rw [tree]
      exact Output.writeAll_same undisturbed.holds

/-- A tree on the way to that of an outcome looks like the first tree, if outputs of the run are all
that was written and no reference ends at what is generated. -/
theorem alike_of_covers {outputs : List Output} {outcome : Outcome} (sound : t.Sound)
    (leads : Leads t r.root R)
    (destined : ∀ o ∈ outputs, ∃ names last, Destined t r.root R names last o)
    (covers : Output.Covers r.root R outputs t u) (holds : ∀ o ∈ outputs, ∃ time, o.Holds time u)
    (onward : Grows u outcome.tree) (told : ∀ o ∈ outputs, o.path ∈ report.written)
    (apart : ∀ p, Refers r t p → ¬ outcome.Generated t report (outcome.tree.endOf p)) :
    Alike r t u := by
  refine alike_of_changes sound leads (changes_of_covers leads destined covers holds)
    fun p refers => ?_
  obtain ⟨q, rfl, begun⟩ := refers.normal sound leads
  refine FileTree.Growth.find sound ⟨covers.grows, onward, fun l old => ?_⟩ begun (apart _ refers)
  by_contra differs
  exact old (generated_of_covers covers onward told differs)

theorem undisturbed_of_apart (sound : t.Sound) (leads : Leads t r.root R)
    (writes : (r.generate config.wet time t cache).result = .ok report)
    (apart : ∀ p, Refers r t p → ¬ (r.generate config.wet time t cache).Generated t report
      ((r.generate config.wet time t cache).tree.endOf p)) :
    r.Undisturbed config time t cache (r.generate config.wet time t cache) := by
  have done := completes_of_ok writes
  have written : report.written = (r.mapPart config t).value.outputs.map Output.path ++
      (r.makefilePart config (r.afterMaps config time t) cache).value.2.outputs.map
        Output.path := by
    rw [Except.ok.inj (writes.symm.trans done.result)]
    rfl
  have destined (o : Output) (ho : o ∈ r.produced config t cache) :
      ∃ names last, Destined t r.root R names last o := destined_of_produced sound leads ho
  have ends (o : Output) (ho : o ∈ r.produced config t cache) :
      ∃ names last, Path.Below r.root (names ++ [last]) o.path := by
    obtain ⟨names, last, destination⟩ := destined o ho
    exact ⟨names, last, destination.below⟩
  have packages : (r.mapPart config t).value.outputs ⊆ r.produced config t cache :=
    List.subset_append_left _ _
  -- after the packages
  have between : Alike r t (r.afterMaps config time t) := by
    have first : Output.Emits r.root R time (r.mapPart config t).value.outputs t
        (r.afterMaps config time t) :=
      Output.emits_writeAll leads (fun o ho => ends o (packages ho)) distinct_mapPart done.maps
    refine alike_of_covers sound leads (fun o ho => destined o (packages ho)) first.toCovers
      (fun o ho => ⟨time, first.holds o ho⟩) ?_ (fun o ho => ?_) apart
    · rw [done.tree]
      exact Output.grows_writeAll done.makefiles
    · rw [written]
      exact List.mem_append_left _ (List.mem_map_of_mem ho)
  -- after the run
  have run := writes_of_completes (Alike.refl r t) between done
  have whole : Output.Emits r.root R time (r.produced config t cache) t
      (r.generate config.wet time t cache).tree := by
    rw [run.tree]
    exact Output.emits_writeAll leads ends (distinct_produced sound leads) run.done
  have told (o : Output) (ho : o ∈ r.produced config t cache) : o.path ∈ report.written := by
    rw [written, makefilePart_congr between, ← List.map_append]
    exact List.mem_map_of_mem ho
  have after : Alike r t (r.generate config.wet time t cache).tree :=
    alike_of_covers sound leads destined whole.toCovers (fun o ho => ⟨time, whole.holds o ho⟩)
      (Grows.refl _) told apart
  refine ⟨between, after, fun time' => ?_, whole.holds, fun l => ?_⟩
  · -- after the packages once more
    have again : Output.Rewrites (r.mapPart config t).value.outputs
        (r.generate config.wet time t cache).tree
        (r.afterMaps config time' (r.generate config.wet time t cache).tree) := by
      unfold afterMaps
      rw [mapPart_congr after]
      exact (Output.writeAll_again fun o ho => ⟨time, whole.holds o (packages ho)⟩).2
    exact alike_of_covers sound leads destined (whole.toCovers.rewrite again packages)
      (fun o ho => (whole.holds o ho).of_sameTexts again.same) again.same.symm.grows told apart
  · rcases whole.rest l with same | placed | ⟨none, directory, -⟩
    · exact .inl same
    · exact .inr (.inl placed)
    · exact .inr (.inr ⟨none, directory⟩)

theorem undisturbed_of_nowhere (nowhere : ∀ R, ¬ Leads t r.root R)
    (writes : (r.generate config.wet time t cache).result = .ok report) :
    r.Undisturbed config time t cache (r.generate config.wet time t cache) := by
  obtain ⟨maps, makefiles⟩ := produced_eq_nil nowhere config cache
  have still (time : Timestamp) : r.afterMaps config time t = t := by
    unfold afterMaps
    rw [maps]
    rfl
  have between : Alike r t (r.afterMaps config time t) := (still time).symm ▸ Alike.refl r t
  have run := writes_of_completes (Alike.refl r t) between (completes_of_ok writes)
  have none : r.produced config t cache = [] := by
    unfold produced
    rw [maps, makefiles]
    rfl
  have tree : (r.generate config.wet time t cache).tree = t := by
    rw [run.tree, none]
    rfl
  refine ⟨between, ?_, fun time' => ?_, ?_, fun l => .inl ?_⟩
  · rw [tree]
    exact Alike.refl r t
  · rw [tree, still]
    exact Alike.refl r t
  · rw [none]
    nofun
  · rw [tree]

/-- For every tree, configuration, time and cache: if the run ends without an error, and no path by
which a file refers to another ends at what it has generated, then a dry run tells the same, the run
changes what it lists and nothing else, and a second run changes nothing. -/
theorem dryRun_foretells (sound : t.Sound)
    (writes : (r.generate config.wet time t cache).result = .ok report)
    (apart : ∀ p, Refers r t p → ¬ (r.generate config.wet time t cache).Generated t report
      ((r.generate config.wet time t cache).tree.endOf p)) :
    r.Foretells config time t cache report := by
  refine foretells_of_undisturbed writes ?_
  by_cases there : ∃ R, Leads t r.root R
  · obtain ⟨R, leads⟩ := there
    exact undisturbed_of_apart sound leads writes apart
  · exact undisturbed_of_nowhere (fun R leads => there ⟨R, leads⟩) writes

/-- A register map, and a core that refers to its source; test benches without packages. -/
def coreTree : FileTree where
  nodes := .ofList [
    (List.map String.toList ["testbenches"], .directory),
    (List.map String.toList ["docs"], .directory),
    (List.map String.toList ["docs", "regmap"], .directory),
    (List.map String.toList ["docs", "regmap", "adi_regmap_base.txt"], .file (some
      "TITLE\nBase\nbase\nENDTITLE\nREG\n0x1\nID\nENDREG\n") ⟨0, 0⟩),
    (List.map String.toList ["library"], .directory),
    (List.map String.toList ["library", "core"], .directory),
    (List.map String.toList ["library", "core", "core_ip.tcl"], .file (some
      "adi_ip_files core [list core.v]\n") ⟨0, 0⟩),
    (List.map String.toList ["library", "core", "core.v"], .file (some
      "module core();\nendmodule\n") ⟨0, 0⟩)]

/-- The files that a run over the tree writes. -/
def corePaths : List Path := [
  ⟨"./testbenches/library/regmaps/adi_regmap_base_pkg.sv"⟩,
  ⟨"./testbenches/library/regmaps/test_program.sv"⟩,
  ⟨"./testbenches/library/regmaps/test_program"⟩,
  ⟨"./library/core/Makefile"⟩]

theorem dryRun_foretells_coreTree :
    ∃ report, mixedRepository.Foretells dryConfig ⟨0, 0⟩ coreTree {} report ∧
      report.written = corePaths := by
  have sound : coreTree.Sound := sound_of_entries (by decide +kernel) (by decide +kernel)
  have written : (mixedRepository.generate dryConfig.wet ⟨0, 0⟩ coreTree {}).result.toOption.map
      (·.written) = some corePaths := by decide +kernel
  obtain ⟨report, ended, paths⟩ := Option.map_eq_some_iff.mp written
  have writes :
      (mixedRepository.generate dryConfig.wet ⟨0, 0⟩ coreTree {}).result = .ok report := by
    cases result : (mixedRepository.generate dryConfig.wet ⟨0, 0⟩ coreTree {}).result with
    | error e =>
      rw [result] at ended
      cases ended
    | ok report' =>
      rw [result] at ended
      cases ended
      rfl
  refine ⟨report, dryRun_foretells sound writes fun p refers => ?_, paths⟩
  -- the source of the core is all that is referred to
  have source : p = ⟨"library/core/core.v"⟩ := by
    have sources : mixedRepository.topPaths coreTree = [⟨"library/core/core.v"⟩] := by
      decide +kernel
    have entries : mixedRepository.projectEntries coreTree = [] := by decide +kernel
    cases refers with
    | top listed named =>
      have mem := mem_topPaths listed named
      rw [sources] at mem
      exact List.mem_singleton.mp mem
    | script listed _ =>
      rw [entries] at listed
      cases listed
  have ends : (mixedRepository.generate dryConfig.wet ⟨0, 0⟩ coreTree {}).tree.endOf
      ⟨"library/core/core.v"⟩ = List.map String.toList ["library", "core", "core.v"] := by
    decide +kernel
  have same : (mixedRepository.generate dryConfig.wet ⟨0, 0⟩ coreTree {}).tree.node?
      (List.map String.toList ["library", "core", "core.v"]) =
        coreTree.node? (List.map String.toList ["library", "core", "core.v"]) := by decide +kernel
  have others : ∀ q ∈ corePaths,
      ((mixedRepository.generate dryConfig.wet ⟨0, 0⟩ coreTree {}).tree.place q).toOption ≠
        some (List.map String.toList ["library", "core", "core.v"]) := by decide +kernel
  rw [source, ends]
  rintro (differs | ⟨q, hq, placed⟩)
  · exact differs same
  · rw [paths] at hq
    refine others q hq ?_
    rw [placed]
    rfl

end Repository

end Gateware
