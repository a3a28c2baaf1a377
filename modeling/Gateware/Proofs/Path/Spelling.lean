import Gateware.Proofs.Path.Fork
import Mathlib.Logic.Relation

/-!
# Spellings of a path

Two paths spell the same one when single points, and names with a step up behind them, can be left
out and put in until they agree (`Respells`). Each path has one normal form among its spellings
(`normal_and_spells_iff`), so the normal forms tell which paths are the same
(`normalize_eq_iff_respells`), and of joined paths only the normal forms count
(`normalize_join_normalize`).
-/

namespace Gateware

open Text

namespace Path

open Relation

/-- One place of a path is left out: a single point, or a name and the step up behind it. -/
inductive Shortens : List PathPart → List PathPart → Prop
  | point (l r : List PathPart) : Shortens (l ++ .here :: r) (l ++ r)
  | name (l : List PathPart) (n : Text) (r : List PathPart) :
      Shortens (l ++ .name n :: .up :: r) (l ++ r)

/-- Parts that become the same ones when places are left out and put in. -/
abbrev Spells : List PathPart → List PathPart → Prop := EqvGen Shortens

def Respells (p q : Path) : Prop := Spells p.parts q.parts

/-- Parts without a single point, and without a step up right behind a name. -/
structure Normal (l : List PathPart) : Prop where
  pointless : .here ∉ l
  settled : ∀ n, ¬ [.name n, .up] <:+: l

variable {l m : List PathPart} {p q : Path}

theorem Normal.not_shortens (h : Normal l) (m : List PathPart) : ¬ Shortens l m := by
  obtain ⟨pointless, settled⟩ := h
  rintro (⟨a, r⟩ | ⟨a, n, r⟩)
  · exact pointless (List.mem_append_right a List.mem_cons_self)
  · exact settled n ⟨a, r, by simp⟩

/-! ### Reduced parts -/

/-- Parts that are put on a path one after another leave out all that can be left out there. -/
theorem shortens_foldl_push (l stack : List PathPart) :
    ReflTransGen Shortens (stack.reverse ++ l) (l.foldl push stack).reverse := by
  induction l generalizing stack with
  | nil =>
    rw [List.append_nil]
    exact .refl
  | cons c l ih =>
    refine .trans ?_ (ih (push stack c))
    fun_cases push stack c with
    | case1 => exact .single (.point stack.reverse l)
    | case2 n rest =>
      rw [List.reverse_cons, List.append_assoc]
      exact .single (.name rest.reverse n l)
    | case3 => rw [List.reverse_cons, List.append_assoc, List.singleton_append]

theorem shortens_reduce (l : List PathPart) : ReflTransGen Shortens l (reduce l) :=
  shortens_foldl_push l []

theorem reduce_eq_self (h : Normal l) : reduce l = l :=
  (reflTransGen_iff_eq h.not_shortens).mp (shortens_reduce l)

theorem Shortens.reduce_eq (h : Shortens l m) : reduce l = reduce m := by
  unfold reduce
  cases h with
  | point a r =>
    rw [List.foldl_append, List.foldl_append]
    rfl
  | name a n r =>
    rw [List.foldl_append, List.foldl_append]
    rfl

theorem reduce_eq_iff : reduce l = reduce m ↔ Spells l m := by
  have spells (l : List PathPart) : Spells l (reduce l) :=
    EqvGen.reflTransGen_le_eqvGen Shortens _ _ (shortens_reduce l)
  constructor
  · intro same
    exact .trans _ _ _ (spells l) (same ▸ .symm _ _ (spells m))
  · intro spells
    induction spells with
    | rel _ _ h => exact h.reduce_eq
    | refl => rfl
    | symm _ _ _ ih => exact ih.symm
    | trans _ _ _ _ _ ih ih' => exact ih.trans ih'

/-- Behind the floor of a path stand names only. -/
theorem Floor.not_infix {floor : List PathPart} (hf : Floor floor) (names : List Text) (n : Text) :
    ¬ [.name n, .up] <:+: floor ++ names.map .name := by
  rintro ⟨a, r, whole⟩
  rw [List.append_assoc] at whole
  obtain ⟨more, rfl⟩ := hf.prefix_above whole.symm
  rw [List.append_assoc, List.append_cancel_left_eq] at whole
  have up : .up ∈ names.map PathPart.name := whole ▸ by simp
  simp at up

theorem normal_normalize (p : Path) : Normal p.normalize.parts := by
  refine ⟨?_, fun n => ?_⟩
  · rw [parts_normalize]
    exact here_not_mem_reduce p.parts
  · obtain ⟨floor, names, hf, parts⟩ := exists_floor p
    rw [parts]
    exact hf.not_infix names n

/-! ### Normal forms -/

/-- The normal form is the one spelling of a path from which nothing can be left out. -/
theorem normal_and_spells_iff : Normal l ∧ Spells p.parts l ↔ l = p.normalize.parts := by
  constructor
  · rintro ⟨normal, spells⟩
    rw [parts_normalize, reduce_eq_iff.mpr spells, reduce_eq_self normal]
  · rintro rfl
    refine ⟨normal_normalize p, reduce_eq_iff.mp ?_⟩
    rw [parts_normalize, reduce_reduce]

theorem normalize_eq_iff_respells : p.normalize = q.normalize ↔ p.Respells q := by
  unfold Respells
  rw [← reduce_eq_iff, ← parts_normalize, ← parts_normalize]
  refine ⟨congrArg parts, fun same => ?_⟩
  exact eq_of_parts (normalize_normalize p) (normalize_normalize q) same

/-- Of joined paths only the normal forms count; an absolute one replaces what it is joined to. -/
theorem normalize_join_normalize (a b : Path) :
    (a.normalize.join b.normalize.text).normalize = (a.join b.text).normalize := by
  have level := isAbsolute_normalize b
  cases absolute : b.isAbsolute with
  | true =>
    rw [absolute] at level
    have replaces {a b : Path} (h : b.isAbsolute = true) : a.join b.text = b :=
      if_pos (beq_iff_eq.mp h)
    rw [replaces level, replaces absolute, normalize_normalize]
  | false =>
    rw [absolute] at level
    have steps : steps ⟨b.normalize.text⟩ = reduce (steps ⟨b.text⟩) :=
      steps_normalize_relative absolute
    refine congrArg ofParts ?_
    rw [reduce_join (beq_eq_false_iff_ne.mp level), reduce_join (beq_eq_false_iff_ne.mp absolute),
      normalize_normalize, steps, reduce_append_reduce_right]

example : (Path.mk "/../a/./b/../../../c").normalize = ⟨"/../../c"⟩ := by decide

end Path

end Gateware
