import Gateware.Repository.Generation

/-!
# The two stages of a run

A run that ends without an error wrote everything that its stages produce. The second stage reads
the tree as the first one left it.
-/

namespace Gateware

namespace Repository

variable {r : Repository} {config : GenerateConfig} {time : Timestamp} {t : FileTree}
  {cache : ComponentCache} {report : Report}

/-! ### Emitting -/

theorem paths_writeAll {outputs : List Output}
    (h : (Output.writeAll time t outputs).2.2 = none) :
    (Output.writeAll time t outputs).2.1 = outputs.map Output.path := by
  induction outputs generalizing t with
  | nil => rfl
  | cons o rest ih =>
    unfold Output.writeAll at h ⊢
    split at h
    · cases h
    · rename_i u written
      rw [List.map_cons]
      exact congrArg _ (ih h)

theorem paths_emit {outputs : List Output} (h : (emit config time t outputs).2.2.2 = none) :
    (emit config time t outputs).2.1 = outputs.map Output.path := by
  unfold emit at h ⊢
  split at h
  · rename_i writes
    rw [if_pos writes]
    exact paths_writeAll h
  · rename_i writes
    rw [if_neg writes]

theorem tree_emit_dry {outputs : List Output} (h : config.write = false) :
    emit config time t outputs = (t, outputs.map Output.path, [], none) := by
  unfold emit
  rw [h]
  rfl

/-! ### The stages -/

/-- The stage of the register maps, if it is switched on. -/
def mapPart (r : Repository) (config : GenerateConfig) (t : FileTree) : Loaded Stage :=
  if config.registerMaps then r.mapStage t config.stamp else { value := {} }

/-- The stage of the makefiles, if it is switched on. -/
def makefilePart (r : Repository) (config : GenerateConfig) (t : FileTree)
    (cache : ComponentCache) : Loaded (ComponentCache × Stage) :=
  if config.makefiles then r.makefileStage t cache config.stamp else { value := (cache, {}) }

/-- The tree that the stage of the makefiles reads. -/
def between (r : Repository) (config : GenerateConfig) (time : Timestamp) (t : FileTree) :
    FileTree := (emit config time t (r.mapPart config t).value.outputs).1

/-- The report on two stages without a failure. -/
def reportOf (maps : Loaded Stage) (builds : Loaded (ComponentCache × Stage)) : Report :=
  { builds.value.2.counts with
    registerMaps := maps.value.counts.registerMaps
    written := maps.value.outputs.map Output.path ++ builds.value.2.outputs.map Output.path
    warnings := maps.warnings ++ builds.warnings }

/-- What a run without an error did. -/
structure Completes (r : Repository) (config : GenerateConfig) (time : Timestamp) (t : FileTree)
    (cache : ComponentCache) (outcome : Outcome) : Prop where
  maps : (emit config time t (r.mapPart config t).value.outputs).2.2.2 = none
  makefiles : (emit config time (r.between config time t)
    (r.makefilePart config (r.between config time t) cache).value.2.outputs).2.2.2 = none
  tree : outcome.tree = (emit config time (r.between config time t)
    (r.makefilePart config (r.between config time t) cache).value.2.outputs).1
  components : outcome.cache = (r.makefilePart config (r.between config time t) cache).value.1
  result : outcome.result = .ok (reportOf (r.mapPart config t)
    (r.makefilePart config (r.between config time t) cache))

theorem completes_of_failures
    (maps : (emit config time t (r.mapPart config t).value.outputs).2.2.2 = none)
    (makefiles : (emit config time (r.between config time t)
      (r.makefilePart config (r.between config time t) cache).value.2.outputs).2.2.2 = none) :
    r.Completes config time t cache (r.generate config time t cache) := by
  have mapPaths := paths_emit maps
  have buildPaths := paths_emit makefiles
  unfold between at makefiles buildPaths
  unfold mapPart at maps makefiles mapPaths buildPaths
  unfold makefilePart at makefiles buildPaths
  refine ⟨maps, makefiles, ?_, ?_, ?_⟩ <;> unfold generate between mapPart makefilePart <;>
    simp only [maps, makefiles]
  simp only [reportOf, mapPaths, buildPaths]

theorem completes_of_ok (h : (r.generate config time t cache).result = .ok report) :
    r.Completes config time t cache (r.generate config time t cache) := by
  have maps : (emit config time t (r.mapPart config t).value.outputs).2.2.2 = none := by
    cases failed : (emit config time t (r.mapPart config t).value.outputs).2.2.2 with
    | none => rfl
    | some e =>
      unfold mapPart at failed
      unfold generate at h
      simp only [failed] at h
      cases h
  refine completes_of_failures maps ?_
  cases failed : (emit config time (r.between config time t)
      (r.makefilePart config (r.between config time t) cache).value.2.outputs).2.2.2 with
  | none => rfl
  | some e =>
    unfold mapPart at maps
    unfold between mapPart makefilePart at failed
    unfold generate at h
    simp only [maps, failed] at h
    cases h

theorem completes_dry (h : config.write = false) :
    r.Completes config time t cache (r.generate config time t cache) := by
  apply completes_of_failures <;> rw [tree_emit_dry h]

theorem between_dry (h : config.write = false) : r.between config time t = t := by
  unfold between
  rw [tree_emit_dry h]

/-- A dry run always ends with a report, and leaves the tree. -/
theorem generate_dry (h : config.write = false) :
    (r.generate config time t cache).tree = t ∧
      (r.generate config time t cache).cache = (r.makefilePart config t cache).value.1 ∧
      (r.generate config time t cache).result =
        .ok (reportOf (r.mapPart config t) (r.makefilePart config t cache)) := by
  obtain ⟨-, -, tree, components, result⟩ : r.Completes config time t cache _ := completes_dry h
  rw [tree_emit_dry h] at tree
  rw [between_dry h] at tree components result
  exact ⟨tree, components, result⟩

end Repository

end Gateware
