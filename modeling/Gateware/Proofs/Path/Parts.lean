import Gateware.Path.Basic
import Gateware.Proofs.Text.Pieces

/-!
# The parts of a path

A path written from proper parts is read as these parts (`parts_ofParts`), and every path has proper
parts (`parts_proper`). So the path written from the parts of another one tells which parts that has.
-/

namespace Gateware

open Text

namespace PathPart

/-- A part that can stand after another one: its text is one piece of a path, and reads as it. -/
structure Inner (c : PathPart) : Prop where
  reads : inner? c.text = some c
  whole : Path.separator ∉ c.text

theorem Inner.text_ne_nil {c : PathPart} (h : c.Inner) : c.text ≠ [] := by
  intro empty
  have reads := h.reads
  rw [empty] at reads
  cases reads

theorem inner_of_piece {piece : Text} {c : PathPart} (h : inner? piece = some c)
    (whole : Path.separator ∉ piece) : c.Inner := by
  have text : c.text = piece := by
    unfold inner? at h
    split at h
    · cases h
    · split at h
      · rename_i up
        cases h
        exact up.symm
      · cases h
        rfl
  exact ⟨text ▸ h, text ▸ whole⟩

/-- Whether a part leads from one place to another. -/
def isStep : PathPart → Bool
  | up => true
  | name _ => true
  | _ => false

theorem isStep_of_inner? {piece : Text} {c : PathPart} (h : inner? piece = some c) :
    c.isStep = true := by
  unfold inner? at h
  split at h
  · cases h
  · split at h <;> cases h <;> rfl

end PathPart

namespace Path

/-- Parts as a path has them: the root or a single point stands in front of all others. -/
def Proper (l : List PathPart) : Prop :=
  ∃ lead inner, l = lead ++ inner ∧ (lead = [] ∨ lead = [.root] ∨ lead = [.here]) ∧
    ∀ c ∈ inner, c.Inner

/-- The parts that lead on from where a path starts. -/
def steps (p : Path) : List PathPart :=
  (pieces (· == separator) p.text).filterMap PathPart.inner?

def leading (first : Text) : List PathPart :=
  if first = [] then [.root] else if first = "." then [.here] else (PathPart.inner? first).toList

theorem leading_cases (first : Text) :
    leading first = [.root] ∨ leading first = [.here] ∨
      leading first = (PathPart.inner? first).toList := by
  unfold leading
  split
  · exact .inl rfl
  · split
    · exact .inr (.inl rfl)
    · exact .inr (.inr rfl)

theorem parts_of_pieces {p : Path} (h : p.text ≠ []) {first : Text} {rest : List Text}
    (shape : pieces (· == separator) p.text = first :: rest) :
    p.parts = leading first ++ rest.filterMap PathPart.inner? := by
  unfold parts leading
  rw [shape]
  simp only
  by_cases empty : first = []
  · have more : rest ≠ [] := by
      rintro rfl
      exact h (eq_nil_of_pieces (empty ▸ shape))
    simp [empty, more]
  · simp only [empty, if_false]
    split <;> rfl

theorem parts_nil {p : Path} (h : p.text = []) : p.parts = [] := by
  unfold parts
  rw [h]
  rfl

/-! ### Paths have proper parts -/

theorem inner_of_mem_pieces {p : Path} {piece : Text} {c : PathPart}
    (h : piece ∈ pieces (· == separator) p.text) (reads : PathPart.inner? piece = some c) :
    c.Inner := by
  refine PathPart.inner_of_piece reads fun found => ?_
  simpa using not_sep_of_mem_pieces h separator found

theorem inner_of_mem_steps {p : Path} {c : PathPart} (h : c ∈ p.steps) : c.Inner := by
  obtain ⟨piece, hp, reads⟩ := List.mem_filterMap.mp h
  exact inner_of_mem_pieces hp reads

theorem parts_proper (p : Path) : Proper p.parts := by
  by_cases h : p.text = []
  · exact ⟨[], [], by simp [parts_nil h], .inl rfl, by simp⟩
  obtain ⟨first, rest, shape⟩ := List.exists_cons_of_ne_nil (pieces_ne_nil (· == separator) p.text)
  have tail : ∀ c ∈ rest.filterMap PathPart.inner?, c.Inner := by
    intro c hc
    obtain ⟨piece, hp, reads⟩ := List.mem_filterMap.mp hc
    exact inner_of_mem_pieces (shape ▸ List.mem_cons_of_mem first hp) reads
  rw [parts_of_pieces h shape]
  rcases leading_cases first with lead | lead | lead
  · exact ⟨_, _, rfl, .inr (.inl lead), tail⟩
  · exact ⟨_, _, rfl, .inr (.inr lead), tail⟩
  · refine ⟨[], _, rfl, .inl rfl, ?_⟩
    intro c hc
    rcases List.mem_append.mp hc with hc | hc
    · rw [lead, Option.mem_toList] at hc
      exact inner_of_mem_pieces (shape ▸ List.mem_cons_self) hc
    · exact tail c hc

/-! ### Writing parts -/

theorem pieces_append_separator (s r : Text) :
    pieces (· == separator) (s ++ separator :: r) =
      pieces (· == separator) s ++ pieces (· == separator) r :=
  @pieces_append_sep (· == separator) separator (beq_self_eq_true separator) s r

theorem parts_join {c : PathPart} (h : c.Inner) (p : Path) :
    (p.join c.text).parts = p.parts ++ [c] := by
  have nonempty := h.text_ne_nil
  obtain ⟨reads, whole⟩ := h
  have pointless : c.text ≠ ['.'] := by
    intro point
    rw [point] at reads
    cases reads
  have one : pieces (· == separator) c.text = [c.text] :=
    pieces_eq_singleton fun a ha => by
      simp only [beq_eq_false_iff_ne]
      rintro rfl
      exact whole ha
  have relative : c.text.head? ≠ some separator := fun head => whole (List.mem_of_mem_head? head)
  unfold join
  rw [if_neg relative]
  split
  · rename_i open'
    rcases open' with empty | last
    · rw [parts_nil empty, empty, List.nil_append, parts_of_pieces (p := ⟨c.text⟩) nonempty one]
      simp [leading, nonempty, pointless, reads]
    · -- the path ends with a separator, so its last piece is empty and the part takes its place
      obtain ⟨above, written⟩ := List.getLast?_eq_some_iff.mp last
      obtain ⟨first, rest, shape⟩ :=
        List.exists_cons_of_ne_nil (pieces_ne_nil (· == separator) above)
      have before : pieces (· == separator) p.text = first :: (rest ++ [[]]) := by
        rw [written, pieces_append_separator, shape]
        rfl
      have after : pieces (· == separator) (p.text ++ c.text) = first :: (rest ++ [c.text]) := by
        rw [written, List.append_assoc, List.singleton_append, pieces_append_separator, shape,
          one]
        rfl
      rw [parts_of_pieces (p := ⟨p.text ++ c.text⟩) (by simp [nonempty]) after,
        parts_of_pieces (by simp [written]) before]
      simp [List.filterMap_append, reads, show PathPart.inner? [] = none from rfl]
  · rename_i closed
    have started : p.text ≠ [] := fun empty => closed (.inl empty)
    obtain ⟨first, rest, shape⟩ :=
      List.exists_cons_of_ne_nil (pieces_ne_nil (· == separator) p.text)
    have after : pieces (· == separator) (p.text ++ separator :: c.text) =
        first :: (rest ++ [c.text]) := by
      rw [pieces_append_separator, shape, one]
      rfl
    rw [parts_of_pieces (p := ⟨p.text ++ separator :: c.text⟩) (by simp) after,
      parts_of_pieces started shape]
    simp [reads]

theorem parts_joinParts {l : List PathPart} (h : ∀ c ∈ l, c.Inner) (p : Path) :
    (p.joinParts l).parts = p.parts ++ l := by
  induction l generalizing p with
  | nil => simp [joinParts]
  | cons c l ih =>
    have first := h c List.mem_cons_self
    have rest := ih (fun a ha => h a (List.mem_cons_of_mem c ha)) (p.join c.text)
    rw [parts_join first, List.append_assoc, List.singleton_append] at rest
    exact rest

/-- Proper parts are read back from the path that is written from them. -/
theorem parts_ofParts {l : List PathPart} (h : Proper l) : (ofParts l).parts = l := by
  obtain ⟨lead, inner, rfl, front, tail⟩ := h
  have split : ofParts (lead ++ inner) = (ofParts lead).joinParts inner := by
    unfold ofParts joinParts
    rw [List.foldl_append]
  rw [split, parts_joinParts tail]
  rcases front with rfl | rfl | rfl <;> rfl

/-- The path written from the parts tells them. -/
theorem parts_eq_of_ofParts {p q : Path} (h : ofParts p.parts = ofParts q.parts) :
    p.parts = q.parts := by
  have same := congrArg parts h
  rwa [parts_ofParts (parts_proper p), parts_ofParts (parts_proper q)] at same

/-! ### What the parts say of a path -/

theorem steps_eq (p : Path) : p.steps = p.parts.filter PathPart.isStep := by
  by_cases h : p.text = []
  · rw [parts_nil h, steps, h]
    rfl
  obtain ⟨first, rest, shape⟩ := List.exists_cons_of_ne_nil (pieces_ne_nil (· == separator) p.text)
  have own (pieces : List Text) :
      (pieces.filterMap PathPart.inner?).filter PathPart.isStep =
        pieces.filterMap PathPart.inner? := by
    refine List.filter_eq_self.mpr fun c hc => ?_
    obtain ⟨piece, -, reads⟩ := List.mem_filterMap.mp hc
    exact PathPart.isStep_of_inner? reads
  have lead : (leading first).filter PathPart.isStep = [first].filterMap PathPart.inner? := by
    unfold leading
    split
    · rename_i empty
      rw [empty]
      rfl
    · split
      · rename_i point
        rw [point]
        rfl
      · cases reads : PathPart.inner? first with
        | none => simp [reads]
        | some c => simp [reads, PathPart.isStep_of_inner? reads]
  rw [parts_of_pieces h shape, List.filter_append, lead, own, steps, shape, ← List.filterMap_append]
  rfl

theorem root_mem_leading_iff {first : Text} : .root ∈ leading first ↔ first = [] := by
  unfold leading
  split
  · simp [*]
  · split
    · simp [*]
    · rename_i nonempty _
      rw [Option.mem_toList]
      exact ⟨fun reads => absurd (PathPart.isStep_of_inner? reads) (by decide),
        fun empty => absurd empty nonempty⟩

theorem isAbsolute_iff {p : Path} : p.isAbsolute = true ↔ .root ∈ p.parts := by
  unfold isAbsolute
  cases text : p.text with
  | nil => simp [parts_nil text]
  | cons a s =>
    have nonempty : p.text ≠ [] := by simp [text]
    have inside (rest : List Text) : ¬ .root ∈ rest.filterMap PathPart.inner? := by
      intro found
      obtain ⟨piece, -, reads⟩ := List.mem_filterMap.mp found
      exact absurd (PathPart.isStep_of_inner? reads) (by decide)
    obtain ⟨w, ws, shape⟩ := List.exists_cons_of_ne_nil (pieces_ne_nil (· == separator) s)
    by_cases start : a = separator
    · have front : pieces (· == separator) p.text = [] :: w :: ws := by
        simp [text, pieces, start, shape]
      rw [parts_of_pieces nonempty front]
      simp [root_mem_leading_iff, start]
    · have front : pieces (· == separator) p.text = (a :: w) :: ws := by
        simp [text, pieces, start, shape]
      rw [parts_of_pieces nonempty front, List.mem_append]
      simp [root_mem_leading_iff, start, inside]

end Path

end Gateware
