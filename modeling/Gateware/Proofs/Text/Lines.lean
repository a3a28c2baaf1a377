import Gateware.Proofs.Text.Pieces

/-!
# Texts written line by line

A text is within one line when it holds no line feed. Such lines are read back from the text that
they are written to, whatever stands behind them (`lines_unlines_append`).
-/

namespace Gateware.Text

variable {s t l : Text} {ls : List Text}

/-- The text is within one line. -/
def OneLine (s : Text) : Prop := '\n' ∉ s

instance (s : Text) : Decidable (OneLine s) := inferInstanceAs (Decidable (_ ∉ _))

theorem oneLine_append : OneLine (s ++ t) ↔ OneLine s ∧ OneLine t := by
  unfold OneLine
  rw [List.mem_append, not_or]

theorem oneLine_of_forall (h : ∀ c ∈ s, (c != '\n') = true) : OneLine s :=
  fun broken => absurd (h '\n' broken) (by decide)

theorem oneLine_joinWith {sep : Text} (between : OneLine sep) (h : ∀ w ∈ ls, OneLine w) :
    OneLine (joinWith sep ls) := by
  induction ls with
  | nil => exact List.not_mem_nil
  | cons w ls ih =>
    obtain ⟨first, rest⟩ := List.forall_mem_cons.mp h
    cases ls with
    | nil => exact first
    | cons v ls => exact oneLine_append.mpr ⟨oneLine_append.mpr ⟨first, between⟩, ih rest⟩

theorem unlines_append (ls ms : List Text) : unlines (ls ++ ms) = unlines ls ++ unlines ms :=
  List.flatMap_append

theorem lines_cons (whole : OneLine l) (s : Text) : lines (l ++ '\n' :: s) = l :: lines s := by
  have first : pieces (· == '\n') l = [l] := pieces_eq_singleton fun c hc => by
    rw [beq_eq_false_iff_ne]
    rintro rfl
    exact whole hc
  have cut : pieces (· == '\n') (l ++ '\n' :: s) = l :: pieces (· == '\n') s := by
    rw [pieces_append_sep (by decide), first, List.singleton_append]
  unfold lines
  rw [cut, List.reverse_cons]
  cases shape : (pieces (· == '\n') s).reverse with
  | nil => exact absurd (List.reverse_eq_nil_iff.mp shape) (pieces_ne_nil _ s)
  | cons w ws => cases w <;> simp

theorem lines_unlines_append (whole : ∀ l ∈ ls, OneLine l) (s : Text) :
    lines (unlines ls ++ s) = ls ++ lines s := by
  induction ls with
  | nil => rfl
  | cons l ls ih =>
    obtain ⟨first, rest⟩ := List.forall_mem_cons.mp whole
    have written : unlines (l :: ls) ++ s = l ++ '\n' :: (unlines ls ++ s) := by
      simp [unlines]
    rw [written, lines_cons first, ih rest, List.cons_append]

theorem lines_unlines (whole : ∀ l ∈ ls, OneLine l) : lines (unlines ls) = ls := by
  have read := lines_unlines_append whole []
  rwa [List.append_nil, show lines [] = [] from rfl, List.append_nil] at read

end Gateware.Text
