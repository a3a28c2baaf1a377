import Gateware.Component.Dependency
import Gateware.Proofs.Text.Literal

/-!
# Conditions without wrappers

A condition wraps each parameter that it is about (`Wraps`). `Unwraps` says what an expression
becomes when its wrappers are taken off from the left, each at once, and `cleans_iff` that cleaning
leaves this text without its parentheses, and no other.
-/

namespace Gateware.Dependency

open Text

/-- The text begins with a wrapped parameter. The wrapper ends at the first two closing parentheses,
and on the line on which it begins. -/
structure Wraps (s parameter rest : Text) : Prop where
  shape : s = "spirit:decode(id(" ++ parameter ++ "))" ++ rest
  line : '\n' ∉ parameter
  shortest : ∀ p r, s = "spirit:decode(id(" ++ p ++ "))" ++ r → parameter.length ≤ p.length

/-- The second text is the first without its wrappers, taken from the left. A wrapper inside of a
parameter stays. -/
inductive Unwraps : Text → Text → Prop
  | done : Unwraps [] []
  | wrapped {s parameter rest t : Text} (here : Wraps s parameter rest) (later : Unwraps rest t) :
      Unwraps s (parameter ++ t)
  | kept {c : Char} {s t : Text} (free : ∀ parameter rest, ¬ Wraps (c :: s) parameter rest)
      (later : Unwraps s t) : Unwraps (c :: s) (c :: t)

/-- The expression without wrappers and then without parentheses. -/
def Cleans (raw condition : Text) : Prop :=
  ∃ plain, Unwraps raw plain ∧ condition = plain.filter fun c => c ∉ ['(', ')']

/-! ### One wrapper -/

theorem decoded?_eq_some_iff {s parameter rest : Text} :
    decoded? s = some (parameter, rest) ↔ Wraps s parameter rest := by
  unfold decoded?
  rw [Option.bind_eq_some_iff]
  constructor
  · rintro ⟨r, front, found⟩
    obtain ⟨closed, line⟩ := Option.filter_eq_some_iff.mp found
    obtain rfl := stripStart?_eq_some_iff.mp front
    obtain ⟨rfl, shortest⟩ := cut?_eq_some_iff.mp closed
    refine ⟨by simp only [List.append_assoc], by simpa using line, fun p r same => ?_⟩
    simp only [List.append_assoc, List.append_cancel_left_eq] at same
    exact shortest p r (by simpa only [List.append_assoc] using same)
  · rintro ⟨rfl, line, shortest⟩
    refine ⟨parameter ++ "))" ++ rest, ?_, Option.filter_eq_some_iff.mpr ⟨?_, by simpa using line⟩⟩
    · rw [stripStart?_eq_some_iff]
      simp only [List.append_assoc]
    · refine cut?_eq_some_iff.mpr ⟨rfl, fun p r same => shortest p r ?_⟩
      simp only [List.append_assoc] at same ⊢
      rw [same]

theorem decoded?_eq_none_iff {s : Text} :
    decoded? s = none ↔ ∀ parameter rest, ¬ Wraps s parameter rest := by
  simp only [Option.eq_none_iff_forall_ne_some, Prod.forall, ne_eq, decoded?_eq_some_iff]

theorem consumes_decoded? : Consumes decoded? := by
  intro s parameter rest found
  obtain ⟨rfl, -, -⟩ := decoded?_eq_some_iff.mp found
  exact ⟨"spirit:decode(id(" ++ parameter ++ "))", by simp, rfl⟩

/-! ### All wrappers -/

theorem substitute_wrapped {s parameter rest : Text} (h : Wraps s parameter rest) :
    substitute (fun _ t => decoded? t) s =
      parameter ++ substitute (fun _ t => decoded? t) rest :=
  substitute_first (b := []) consumes_decoded?
    (fun _ nonempty last => absurd (List.suffix_nil.mp last) nonempty)
    (decoded?_eq_some_iff.mpr h)

theorem substitute_kept {c : Char} {s : Text}
    (h : ∀ parameter rest, ¬ Wraps (c :: s) parameter rest) :
    substitute (fun _ t => decoded? t) (c :: s) = c :: substitute (fun _ t => decoded? t) s := by
  refine substitute_append (b := [c]) fun u nonempty last => ?_
  obtain rfl : u = [c] := (List.suffix_cons_iff.mp last).resolve_right fun last =>
    nonempty (List.suffix_nil.mp last)
  exact decoded?_eq_none_iff.mpr h

theorem Unwraps.substitute_eq {s t : Text} (h : Unwraps s t) :
    substitute (fun _ u => decoded? u) s = t := by
  induction h with
  | done => rfl
  | wrapped here _ ih => rw [substitute_wrapped here, ih]
  | kept free _ ih => rw [substitute_kept free, ih]

theorem unwraps_substitute (s : Text) : Unwraps s (substitute (fun _ u => decoded? u) s) := by
  induction h : s.length using Nat.strongRecOn generalizing s with
  | _ n ih =>
    cases s with
    | nil => exact .done
    | cons c s =>
      by_cases wrapped : ∃ parameter rest, Wraps (c :: s) parameter rest
      · obtain ⟨parameter, rest, here⟩ := wrapped
        have shorter : rest.length < n := by
          have opening : 0 < ("spirit:decode(id(" : Text).length := by decide
          rw [← h, here.shape]
          simp only [List.length_append]
          omega
        rw [substitute_wrapped here]
        exact .wrapped here (ih _ shorter rest rfl)
      · have free : ∀ parameter rest, ¬ Wraps (c :: s) parameter rest :=
          fun parameter rest here => wrapped ⟨parameter, rest, here⟩
        rw [substitute_kept free]
        exact .kept free (ih _ (by simp [← h]) s rfl)

/-- Taking the wrappers off has one result. -/
theorem unwraps_iff {s t : Text} : Unwraps s t ↔ substitute (fun _ u => decoded? u) s = t := by
  constructor
  · exact Unwraps.substitute_eq
  · rintro rfl
    exact unwraps_substitute s

theorem cleans_iff {raw condition : Text} : Cleans raw condition ↔ clean raw = condition := by
  have apart (c : Char) : decide (c ∉ ['(', ')']) = (c != '(' && c != ')') := by
    rw [Bool.eq_iff_iff]
    simp
  unfold Cleans clean
  simp only [unwraps_iff, exists_eq_left', apart]
  exact eq_comm

example : clean "spirit:decode(id(NUM_LANES)) > (2)" = "NUM_LANES > 2" := by decide

end Gateware.Dependency
