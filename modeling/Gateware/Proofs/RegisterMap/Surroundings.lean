import Gateware.Proofs.RegisterMap.Blocks
import Gateware.Proofs.RegisterMap.Invariant
import Mathlib.Data.List.Forall2

/-!
# One register in a description

A description is cut around the block of one register (`Surroundings`). Whatever the block is, the
register that it gives stands at the same place of the same group (`group_mem`), and two
descriptions with the same surroundings differ in that group only (`forall₂_groups`).
-/

namespace Gateware.RegisterMap

open Text

/-- The lines of a description around the block of one register. -/
structure Surroundings where
  /-- The lines before the title line of the group. -/
  before : List DescriptionLine
  header : List DescriptionLine
  title : Text
  name : Text
  /-- The lines of the group before the register line. -/
  lead : List DescriptionLine
  after : List DescriptionLine
  uses_only : ∀ l ∈ header, l.isUses = true
  same_group : DescriptionLine.title ∉ lead
  closed : ∀ l ∈ after.head?, l = .reg ∨ l = .title
  /-- No later title of the description names the group again. -/
  last : ∀ block ∈ (cutAt (· = .title) after).2, ∀ g, (readGroup block).1 = some g → g.name ≠ name

/-- The lines of one register only. -/
structure Enclosed (block : List DescriptionLine) : Prop where
  title : DescriptionLine.title ∉ block
  reg : DescriptionLine.reg ∉ block

namespace Surroundings

/-- The description with the block after the register line. -/
def lines (s : Surroundings) (block : List DescriptionLine) : List DescriptionLine :=
  s.before ++ .title :: (s.header ++ .text s.title :: .text s.name ::
    (s.lead ++ .reg :: (block ++ s.after)))

def uses (s : Surroundings) : List Text := s.header.filterMap usedGroup?

/-- The registers of the group before the one of the block. -/
def frontBlocks (s : Surroundings) : List RegisterBlock :=
  (cutAt (· = .reg) s.lead).2.map readRegister

def backBlocks (s : Surroundings) : List RegisterBlock :=
  (cutAt (· = .reg) (cutAt (· = .title) s.after).1).2.map readRegister

def front (s : Surroundings) : List Register := s.frontBlocks.filterMap RegisterBlock.register

def back (s : Surroundings) : List Register := s.backBlocks.filterMap RegisterBlock.register

/-- The group with the register of the block at its place. -/
def group (s : Surroundings) (block : List DescriptionLine) : Group where
  title := s.title
  name := s.name
  uses := s.uses
  registers := s.front ++ (readRegister block).register.toList ++ s.back
  accessTypes := (s.frontBlocks.flatMap RegisterBlock.tags ++ (readRegister block).tags ++
    s.backBlocks.flatMap RegisterBlock.tags).foldl addTag []

/-- The groups that the lines before give. -/
def earlier (s : Surroundings) : List Group :=
  ((cutAt (· = .title) s.before).2.foldl addBlock ([], [])).1

def later (s : Surroundings) : List Group :=
  (cutAt (· = .title) s.after).2.filterMap fun block => (readGroup block).1

end Surroundings

/-! ### Cutting around a block -/

theorem cutAt_append_opening {opens : DescriptionLine → Bool} {opening : DescriptionLine}
    (ho : opens opening = true) (ls ls' : List DescriptionLine) :
    cutAt opens (ls ++ opening :: ls') =
      ((cutAt opens ls).1, (cutAt opens ls).2 ++ (cutAt opens ls').1 :: (cutAt opens ls').2) := by
  induction ls with
  | nil => simp [cutAt, ho]
  | cons l ls ih => by_cases h : opens l <;> simp [cutAt, ih, h]

theorem cutAt_append_stop {opens : DescriptionLine → Bool} {block rest : List DescriptionLine}
    (inside : ∀ l ∈ block, opens l = false) (stop : ∀ l ∈ rest.head?, opens l = true) :
    cutAt opens (block ++ rest) = (block, (cutAt opens rest).2) := by
  have none : (cutAt opens rest).1 = [] := by
    cases rest with
    | nil => rfl
    | cons l rest => simp [cutAt, stop l rfl]
  rw [cutAt_append inside, none, List.append_nil]

namespace Surroundings

variable {s : Surroundings} {block : List DescriptionLine}

/-- What follows the block in its group begins with another register. -/
theorem rest_opens (s : Surroundings) :
    ∀ l ∈ (cutAt (· = .title) s.after).1.head?, decide (l = .reg) = true := by
  have closed := s.closed
  cases after : s.after with
  | nil => simp [cutAt]
  | cons l ls =>
    rw [after] at closed
    rcases closed l rfl with rfl | rfl <;> simp [cutAt]

theorem readGroup_around (h : Enclosed block) :
    (readGroup (s.header ++ .text s.title :: .text s.name ::
      (s.lead ++ .reg :: (block ++ (cutAt (· = .title) s.after).1)))).1 = some (s.group block) := by
  have cut : (cutAt (· = .reg) (s.lead ++ .reg :: (block ++ (cutAt (· = .title) s.after).1))).2 =
      (cutAt (· = .reg) s.lead).2 ++
        block :: (cutAt (· = .reg) (cutAt (· = .title) s.after).1).2 := by
    rw [cutAt_append_opening (decide_eq_true rfl),
      cutAt_append_stop (decide_eq_false_of_not_mem h.reg) s.rest_opens]
  unfold readGroup
  rw [List.takeWhile_append_of_pos s.uses_only, List.dropWhile_append_of_pos s.uses_only]
  simp only [DescriptionLine.isUses, Bool.false_eq_true, not_false_eq_true,
    List.takeWhile_cons_of_neg, List.dropWhile_cons_of_neg, List.append_nil, readGroupBody, cut,
    List.map_append, List.map_cons, List.filterMap_append, List.flatMap_append, List.flatMap_cons]
  unfold group front back frontBlocks backBlocks uses
  congr 2
  · cases register : (readRegister block).register <;> simp [register]
  · simp only [List.append_assoc]

theorem addBlock_fst (acc : List Group × List ParseWarning) {block : List DescriptionLine}
    {g : Group} (h : (readGroup block).1 = some g) : (addBlock acc block).1 = addGroup acc.1 g := by
  unfold addBlock
  rcases read : readGroup block with ⟨_ | g', warnings⟩ <;> simp_all

theorem foldl_addBlock_fst (blocks : List (List DescriptionLine))
    (acc : List Group × List ParseWarning) :
    (blocks.foldl addBlock acc).1 =
      (blocks.filterMap fun block => (readGroup block).1).foldl addGroup acc.1 := by
  induction blocks generalizing acc with
  | nil => rfl
  | cons block blocks ih =>
    rw [List.foldl_cons, ih]
    unfold addBlock
    rcases read : readGroup block with ⟨_ | g, warnings⟩ <;> simp [read]

theorem ofDescription_lines (h : Enclosed block) :
    (ofDescription (s.lines block)).1 =
      ⟨s.later.foldl addGroup (addGroup s.earlier (s.group block)), none, .empty⟩ := by
  have inside : ∀ l ∈ s.header ++ .text s.title :: .text s.name :: (s.lead ++ .reg :: block),
      decide (l = .title) = false := by
    intro l hl
    simp only [List.mem_append, List.mem_cons] at hl
    rw [decide_eq_false_iff_not]
    rintro rfl
    rcases hl with uses | title | name | lead | reg | own
    · exact absurd (s.uses_only _ uses) (by simp [DescriptionLine.isUses])
    · cases title
    · cases name
    · exact s.same_group lead
    · cases reg
    · exact h.title own
  have cut : (cutAt (· = .title) (s.lines block)).2 = (cutAt (· = .title) s.before).2 ++
      (s.header ++ .text s.title :: .text s.name ::
        (s.lead ++ .reg :: (block ++ (cutAt (· = .title) s.after).1))) ::
        (cutAt (· = .title) s.after).2 := by
    have whole := cutAt_append inside s.after
    simp only [List.append_assoc, List.cons_append] at whole
    unfold lines
    rw [cutAt_append_opening (decide_eq_true rfl), whole]
  unfold ofDescription earlier later
  simp only [cut, List.foldl_append, List.foldl_cons]
  rw [foldl_addBlock_fst, addBlock_fst _ (readGroup_around h)]

/-! ### The group of the block -/

theorem mem_addGroup_self (groups : List Group) (g : Group) : g ∈ addGroup groups g := by
  unfold addGroup
  split
  · rename_i known
    obtain ⟨old, place, same⟩ := List.any_eq_true.mp known
    exact List.mem_map.mpr ⟨old, place, if_pos same⟩
  · exact List.mem_append_right _ (List.mem_singleton.mpr rfl)

theorem mem_addGroup_of_mem {groups : List Group} {g other : Group} (h : g ∈ groups)
    (apart : other.name ≠ g.name) : g ∈ addGroup groups other := by
  unfold addGroup
  split
  · exact List.mem_map.mpr ⟨g, h, if_neg fun same => apart (beq_iff_eq.mp same).symm⟩
  · exact List.mem_append_left _ h

/-- The group of the block is a group of the description. -/
theorem group_mem (h : Enclosed block) :
    s.group block ∈ (ofDescription (s.lines block)).1.groups := by
  rw [ofDescription_lines h]
  have apart : ∀ g ∈ s.later, g.name ≠ s.name := by
    intro g hg
    obtain ⟨lines, hlines, read⟩ := List.mem_filterMap.mp hg
    exact s.last lines hlines g read
  have kept {later groups : List Group} (apart : ∀ g ∈ later, g.name ≠ s.name)
      (place : s.group block ∈ groups) : s.group block ∈ later.foldl addGroup groups := by
    induction later generalizing groups with
    | nil => exact place
    | cons g later ih =>
      exact ih (fun g' hg' => apart g' (List.mem_cons_of_mem g hg'))
        (mem_addGroup_of_mem place (apart g List.mem_cons_self))
  exact kept apart (mem_addGroup_self s.earlier (s.group block))

/-! ### Two blocks in the same surroundings -/

variable {R : Group → Group → Prop} {groups groups' : List Group} {g g' : Group}

theorem forall₂_addGroup (names : ∀ a b, R a b → a.name = b.name)
    (h : List.Forall₂ R groups groups') (hg : R g g') :
    List.Forall₂ R (addGroup groups g) (addGroup groups' g') := by
  have same := names g g' hg
  have known : groups.any (·.name == g.name) = groups'.any (·.name == g'.name) := by
    induction h with
    | nil => rfl
    | cons first _ ih =>
      rw [same] at ih ⊢
      simp only [List.any_cons, ih, names _ _ first]
  unfold addGroup
  rw [known]
  split
  · rw [List.forall₂_map_left_iff, List.forall₂_map_right_iff]
    refine h.imp fun a b related => ?_
    rw [names a b related, same]
    split
    · exact hg
    · exact related
  · exact List.rel_append h (.cons hg .nil)

theorem forall₂_foldl_addGroup (names : ∀ a b, R a b → a.name = b.name) (refl : ∀ a, R a a)
    (later : List Group) (h : List.Forall₂ R groups groups') :
    List.Forall₂ R (later.foldl addGroup groups) (later.foldl addGroup groups') := by
  induction later generalizing groups groups' with
  | nil => exact h
  | cons g later ih => exact ih (forall₂_addGroup names h (refl g))

/-- Descriptions with the same surroundings give the same groups but for that of the block. -/
theorem forall₂_groups {block' : List DescriptionLine} (h : Enclosed block) (h' : Enclosed block')
    (names : ∀ a b, R a b → a.name = b.name) (refl : ∀ a, R a a)
    (related : R (s.group block) (s.group block')) :
    List.Forall₂ R (ofDescription (s.lines block)).1.groups
      (ofDescription (s.lines block')).1.groups := by
  rw [ofDescription_lines h, ofDescription_lines h']
  refine forall₂_foldl_addGroup names refl s.later (forall₂_addGroup names ?_ related)
  exact List.forall₂_same.mpr fun a _ => refl a

end Surroundings

end Gateware.RegisterMap
