import Gateware.Proofs.Path.Spelling
import Gateware.Proofs.Project.Outside

/-!
# Scripts in several spellings

A script is named in any spelling, from the root of the repository or from the directory of the
project. The walk that visits it knows it again by its normal form, so it visits one path for all
spellings of it (`normalize_canonical`).
-/

namespace Gateware

open Text Gateware.Path

namespace Closure

/-- The path that a name in a script is put together to, as it is spelled. -/
def Place.spelled (d : Place) (file : Text) : Path :=
  match stripStart? Vendor.rootToken file with
  | some rest => d.root.join (rest.dropWhile (· == '/'))
  | none => d.directory.join file

theorem Place.resolve_eq_normalize (d : Place) (file : Text) :
    d.resolve file = (d.spelled file).normalize := by
  unfold Place.resolve dependencyPath Place.spelled
  cases stripStart? Vendor.rootToken file <;> rfl

/-- The paths that a walk is sent to, in the spellings in which it is sent there. -/
inductive Sent (t : FileTree) (d : Place) (entry other : Path) (visited : List Path) : Path → Prop
  | entry : Sent t d entry other visited entry
  | other (h : t.isFile other = true) : Sent t d entry other visited other
  | source {p : Path} {s : Script} {i : Nat} {target : Text} (caller : p ∈ visited)
      (read : Script.ofFile t p = .ok s) (line : Sources s i target) (plain : ¬ Computed target) :
      Sent t d entry other visited (d.spelled target)

variable {t : FileTree} {d : Place} {entry other p q : Path} {visited : List Path}

/-- What is visited are the normal forms of the paths that the walk is sent to. -/
theorem Visits.mem_iff_sent (h : Visits t d [] (entries t entry other) visited) :
    p ∈ visited ↔ ∃ q, Sent t d entry other visited q ∧ q.normalize = p := by
  rw [h.mem_iff_reachable]
  constructor
  · intro reach
    cases reach with
    | entry named =>
      rcases mem_entries.mp named with rfl | ⟨file, rfl⟩
      · exact ⟨entry, .entry, rfl⟩
      · exact ⟨other, .other file, rfl⟩
    | source caller read line plain =>
      have visited := (h.mem_iff_reachable _).mpr caller
      exact ⟨_, .source visited read line plain, (d.resolve_eq_normalize _).symm⟩
  · rintro ⟨q, sent, rfl⟩
    cases sent with
    | entry => exact .entry (mem_entries.mpr (.inl rfl))
    | other file => exact .entry (mem_entries.mpr (.inr ⟨file, rfl⟩))
    | source caller read line plain =>
      rw [← d.resolve_eq_normalize]
      exact .source ((h.mem_iff_reachable _).mp caller) read line plain

/-- No path is visited in two spellings. -/
theorem Visits.apart (h : Visits t d [] (entries t entry other) visited) :
    visited.Pairwise fun p q => ¬ p.Respells q := by
  refine h.nodup.1.imp_of_mem fun hp hq different same => different ?_
  have normal {p : Path} (hp : p ∈ visited) : p.normalize = p :=
    ((h.mem_iff_reachable p).mp hp).normal
  rw [← normal hp, ← normal hq]
  exact normalize_eq_iff_respells.mpr same

theorem Visits.respells_iff (h : Visits t d [] (entries t entry other) visited) (q : Path) :
    (∃ p ∈ visited, p.Respells q) ↔ ∃ q', Sent t d entry other visited q' ∧ q'.Respells q := by
  simp only [← normalize_eq_iff_respells]
  constructor
  · rintro ⟨p, hp, same⟩
    obtain ⟨q', sent, rfl⟩ := h.mem_iff_sent.mp hp
    exact ⟨q', sent, (normalize_normalize q').symm.trans same⟩
  · rintro ⟨q', sent, same⟩
    exact ⟨q'.normalize, h.mem_iff_sent.mpr ⟨q', sent, rfl⟩, (normalize_normalize q').trans same⟩

end Closure

open Closure

/-- A path has one normal form, which its spellings share and which a joined path takes from the
normal forms of its parts; so the walk through scripts visits one path for all spellings of it. -/
theorem Path.normalize_canonical :
    (∀ p : Path, Normal p.normalize.parts ∧ p.normalize.normalize = p.normalize) ∧
    (∀ (p : Path) (l : List PathPart), Normal l ∧ Spells p.parts l ↔ l = p.normalize.parts) ∧
    (∀ a b : Path,
      (a.join b.text).normalize = (a.normalize.join b.normalize.text).normalize) ∧
    (∀ (d d' : Place) (file file' : Text),
      d.resolve file = d'.resolve file' ↔ (d.spelled file).Respells (d'.spelled file')) ∧
    ∀ (t : FileTree) (d : Place) (entry other : Path), ∃ visited,
      Visits t d [] (entries t entry other) visited ∧
      ofEntries t (allTargets t) d entry other = Reached.after t {} visited ∧
      (visited.Pairwise fun p q => ¬ p.Respells q) ∧
      ∀ q : Path, (∃ p ∈ visited, p.Respells q) ↔
        ∃ q', Sent t d entry other visited q' ∧ q'.Respells q := by
  refine ⟨fun p => ⟨normal_normalize p, normalize_normalize p⟩, fun p l => normal_and_spells_iff,
    fun a b => (normalize_join_normalize a b).symm, fun d d' file file' => ?_,
    fun t d entry other => ?_⟩
  · rw [d.resolve_eq_normalize, d'.resolve_eq_normalize]
    exact normalize_eq_iff_respells
  · obtain ⟨visited, search, reached⟩ := ofEntries_visits t d entry other
    exact ⟨visited, search, reached, search.apart, search.respells_iff⟩

end Gateware
