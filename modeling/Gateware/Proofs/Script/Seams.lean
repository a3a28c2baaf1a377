import Gateware.Proofs.Script.Runs

/-!
# Seams of logical lines

The pieces of a logical line are normalized before they are joined, so a seam can separate a bracket
from a word that is drawn to it within a line (`Torn`). Nothing else is out of order in a logical
line: all of them are in normal form exactly when no seam is torn (`settledLines_iff`).
-/

namespace Gateware.Script

open Text

variable {a s t y : Text} {ws run : List Text}

/-! ### Bodies -/

theorem prefix_body (s : Text) : body s <+: s := by
  rcases body_cases s with ⟨b, rfl, made⟩ | ⟨-, made⟩
  · rw [made]
    exact (prefix_trimEndBy b).trans (List.prefix_append b _)
  · exact ⟨[], (List.append_nil _).trans made⟩

theorem Settled.of_prefix (h : Settled s) (front : t <+: s)
    (last : ∀ c ∈ t.getLast?, isBlank c = false) : Settled t where
  spaced := h.spaced.of_prefix front last
  drawn y hy inside := h.drawn y hy (inside.trans front.isInfix)

theorem settled_body (h : Settled s) : Settled (body s) := by
  refine h.of_prefix (prefix_body s) ?_
  rcases body_cases s with ⟨b, -, made⟩ | ⟨-, made⟩
  · rw [made]
    exact getLast?_trimEndBy b
  · rw [made]
    exact h.spaced.bare.2

/-- What a run joins to its logical line. -/
def bodies (run : List Text) : List Text := (run.map body).filter fun b => !b.isEmpty

theorem joinRun_eq (run : List Text) : joinRun run = joinWith " " (bodies run) := rfl

theorem settled_of_mem_bodies (h : ∀ line ∈ run, Settled line) :
    ∀ b ∈ bodies run, b ≠ [] ∧ Settled b := by
  intro b hb
  obtain ⟨made, nonempty⟩ := List.mem_filter.mp hb
  obtain ⟨line, hl, rfl⟩ := List.mem_map.mp made
  exact ⟨by simpa using nonempty, settled_body (h line hl)⟩

/-! ### Seams -/

/-- Between the two texts, a bracket is separated from a word that is drawn to it. -/
def Torn (a b : Text) : Prop := a.getLast? = some '[' ∧ ∃ y ∈ drawnWords, y <+: b

theorem prefix_joinWith_iff (hy : ' ' ∉ y) (w : Text) (ws : List Text) :
    y <+: joinWith " " (w :: ws) ↔ y <+: w := by
  cases ws with
  | nil => rfl
  | cons v ws => rw [joinWith_cons_cons, prefix_append_cons_iff hy]

/-- A bracket with a space and a word behind it stands before a seam, behind it or across it. -/
theorem infix_seam_iff (hy : ' ' ∉ y) :
    '[' :: ' ' :: y <:+: a ++ ' ' :: t ↔
      '[' :: ' ' :: y <:+: a ∨ (a.getLast? = some '[' ∧ y <+: t) ∨ '[' :: ' ' :: y <:+: t := by
  induction a with
  | nil =>
    rw [List.nil_append, List.infix_cons_iff, List.cons_prefix_cons]
    simp
  | cons c a ih =>
    have within : '[' :: ' ' :: y <:+: c :: a ↔
        '[' :: ' ' :: y <+: c :: a ∨ '[' :: ' ' :: y <:+: a := List.infix_cons_iff
    rw [List.cons_append, List.infix_cons_iff, ih, within]
    cases a with
    | nil =>
      rw [List.nil_append, List.cons_prefix_cons, List.cons_prefix_cons]
      simp [eq_comm]
    | cons d a =>
      have here : '[' :: ' ' :: y <+: c :: (d :: a ++ ' ' :: t) ↔
          '[' :: ' ' :: y <+: c :: d :: a := by
        rw [List.cons_append, List.cons_prefix_cons, List.cons_prefix_cons, List.cons_prefix_cons,
          List.cons_prefix_cons, prefix_append_cons_iff hy]
      rw [here, List.getLast?_cons_cons, or_assoc]

/-- Joining texts that hold no space between a bracket and the word makes one at a seam only. -/
theorem infix_joinWith_iff (hy : ' ' ∉ y) (apart : ∀ w ∈ ws, ¬ '[' :: ' ' :: y <:+: w) :
    ¬ '[' :: ' ' :: y <:+: joinWith " " ws ↔
      ws.IsChain fun a b => ¬ (a.getLast? = some '[' ∧ y <+: b) := by
  induction ws with
  | nil => simp [joinWith]
  | cons w ws ih =>
    obtain ⟨first, rest⟩ := List.forall_mem_cons.mp apart
    cases ws with
    | nil => simpa [joinWith] using first
    | cons v ws =>
      rw [joinWith_cons_cons, infix_seam_iff hy, prefix_joinWith_iff hy, List.isChain_cons_cons,
        ← ih rest, not_or, not_or]
      exact and_iff_right first

theorem isChain_not_torn_iff : (ws.IsChain fun a b => ¬ Torn a b) ↔
    ∀ y ∈ drawnWords, ws.IsChain fun a b => ¬ (a.getLast? = some '[' ∧ y <+: b) := by
  constructor
  · exact fun h y hy => h.imp fun _ _ whole torn => whole ⟨torn.1, y, hy, torn.2⟩
  · intro h
    rw [List.isChain_iff_getElem]
    rintro i hi ⟨bracket, y, hy, word⟩
    exact List.isChain_iff_getElem.mp (h y hy) i hi ⟨bracket, word⟩

theorem settled_joinWith_iff (h : ∀ w ∈ ws, w ≠ [] ∧ Settled w) :
    Settled (joinWith " " ws) ↔ ws.IsChain fun a b => ¬ Torn a b := by
  have seams : ∀ y ∈ drawnWords, ¬ '[' :: ' ' :: y <:+: joinWith " " ws ↔
      ws.IsChain fun a b => ¬ (a.getLast? = some '[' ∧ y <+: b) := fun y hy =>
    infix_joinWith_iff (unbroken_of_mem_drawnWords hy).space fun w hw => (h w hw).2.drawn y hy
  rw [isChain_not_torn_iff]
  constructor
  · exact fun settled y hy => (seams y hy).mp (settled.drawn y hy)
  · refine fun whole => ⟨spaced_joinWith fun w hw => ?_, fun y hy => (seams y hy).mpr (whole y hy)⟩
    exact ⟨(h w hw).1, (h w hw).2.spaced⟩

/-! ### Logical lines -/

theorem settled_of_mem_runs {source line : Text} (h : run ∈ runs (physicalLines source))
    (hl : line ∈ run) : Settled line := by
  have physical : line ∈ physicalLines source := by
    rw [← flatten_runs (physicalLines source)]
    exact List.mem_flatten.mpr ⟨run, h, hl⟩
  obtain ⟨raw, -, rfl⟩ := List.mem_map.mp physical
  exact settled_normalizeLine raw

/-- Every logical line of the text is its own normal form. -/
def SettledLines (source : Text) : Prop :=
  ∀ line ∈ (Script.ofText source).lines, normalizeLine line = line

/-- The logical lines of a text are spaced, and all of them are in normal form exactly when no two
neighbouring bodies of a run separate a bracket from a word that is drawn to it. -/
theorem settledLines_iff (source : Text) :
    (∀ line ∈ (Script.ofText source).lines, Spaced line) ∧
    (SettledLines source ↔
      ∀ run ∈ runs (physicalLines source), (bodies run).IsChain fun a b => ¬ Torn a b) := by
  have made : (Script.ofText source).lines = (runs (physicalLines source)).map joinRun := rfl
  have settled {run : List Text} (h : run ∈ runs (physicalLines source)) :
      ∀ b ∈ bodies run, b ≠ [] ∧ Settled b :=
    settled_of_mem_bodies fun _ hl => settled_of_mem_runs h hl
  unfold SettledLines
  rw [made, List.forall_mem_map, List.forall_mem_map]
  constructor
  · intro run h
    rw [joinRun_eq]
    exact spaced_joinWith fun b hb => ⟨(settled h b hb).1, (settled h b hb).2.spaced⟩
  · refine forall₂_congr fun run h => ?_
    rw [normalizeLine_eq_self_iff, joinRun_eq, settled_joinWith_iff (settled h)]

/-- A bracket at the end of a continued line and the word `list` in the next one stay apart in the
logical line, where no list is then found. -/
theorem not_settledLines_brokenList :
    ¬ SettledLines "adi_ip_files core [ \\\n  list a.v b.v ]\n" ∧
    (Script.ofText "adi_ip_files core [ \\\n  list a.v b.v ]\n").lines =
      ["adi_ip_files core [ list a.v b.v ]"] ∧
    listItems "adi_ip_files core [ list a.v b.v ]" = [] ∧
    listItems (normalizeLine "adi_ip_files core [ list a.v b.v ]") = ["a.v", "b.v"] := by
  unfold SettledLines
  decide +kernel

end Gateware.Script
