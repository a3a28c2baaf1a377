import Gateware.Proofs.RegisterMap.Isolation

/-!
# Reading further

What the lines of a title give is built up from the front: a register line or a field line goes on
from what the lines before it gave (`takeLines_append`), and until the next such line it is one
step of the reader (`takeLines_reg_own`, `takeLines_field_own`). `progress` says where the lines
after a title line lead, and `progress_reg` and `progress_field` what a block adds to it.
-/

namespace Gateware.RegisterMap

open Text

namespace Cursor

variable {group : Text}

theorem takeLines_append (p : Progress) (pre : List DescriptionLine) {ls : List DescriptionLine}
    (stop : ∀ l ∈ ls.head?, l = .reg ∨ l = .field) :
    takeLines group p (pre ++ ls) = takeLines group (takeLines group p pre) ls := by
  have ends {close : DescriptionLine} (reg : close ≠ .reg) (field : close ≠ .field)
      (body : List DescriptionLine) : closedBy? close (body ++ ls) = closedBy? close body :=
    closedBy?_append_stop body fun l first => by
      rcases stop l first with rfl | rfl
      · exact ⟨rfl, reg.symm⟩
      · exact ⟨rfl, field.symm⟩
  induction pre generalizing p with
  | nil => rfl
  | cons l pre ih =>
    rw [List.cons_append]
    by_cases reg : l = .reg
    · rw [reg, takeLines_reg, takeLines_reg, ends (by simp) (by simp), ih]
    by_cases field : l = .field
    · rw [field, takeLines_field, takeLines_field, ends (by simp) (by simp), ih]
    · rw [takeLines_skip reg field, takeLines_skip reg field, ih]

theorem takeLines_own {own : List DescriptionLine} (reg : .reg ∉ own) (field : .field ∉ own)
    (p : Progress) : takeLines group p own = p := by
  induction own with
  | nil => rfl
  | cons l own ih =>
    obtain ⟨reg, laterReg⟩ := List.ne_and_not_mem_of_not_mem_cons reg
    obtain ⟨field, laterField⟩ := List.ne_and_not_mem_of_not_mem_cons field
    rw [takeLines_skip reg.symm field.symm, ih laterReg laterField]

theorem takeLines_reg_own {own : List DescriptionLine} (reg : .reg ∉ own) (field : .field ∉ own)
    (p : Progress) :
    takeLines group p (.reg :: own) = p.openRegister (closedBy? .endReg own) := by
  rw [takeLines_reg, takeLines_own reg field]

theorem takeLines_field_own {own : List DescriptionLine} (reg : .reg ∉ own)
    (field : .field ∉ own) (p : Progress) :
    takeLines group p (.field :: own) = p.takeField group (closedBy? .endField own) := by
  rw [takeLines_field, takeLines_own reg field]

/-- A field line leaves the registers that are complete, and a register open that was. -/
theorem takeField_keeps (group : Text) (p : Progress) (block : Option (List DescriptionLine)) :
    (p.takeField group block).registers = p.registers ∧
      (p.takeField group block).pending.register?.isSome = p.pending.register?.isSome := by
  unfold Progress.takeField
  cases pending : p.pending with
  | register r => exact ⟨rfl, rfl⟩
  | _ => simp [pending]

/-- Only a register line ends a register. -/
theorem takeLines_keeps {ls : List DescriptionLine} (reg : .reg ∉ ls) (p : Progress) :
    (takeLines group p ls).registers = p.registers ∧
      (takeLines group p ls).pending.register?.isSome = p.pending.register?.isSome := by
  induction ls generalizing p with
  | nil => exact ⟨rfl, rfl⟩
  | cons l ls ih =>
    obtain ⟨other, later⟩ := List.ne_and_not_mem_of_not_mem_cons reg
    by_cases field : l = .field
    · obtain ⟨registers, pending⟩ := ih later (p.takeField group (closedBy? .endField ls))
      obtain ⟨same, still⟩ := takeField_keeps group p (closedBy? .endField ls)
      rw [field, takeLines_field]
      exact ⟨registers.trans same, pending.trans still⟩
    · rw [takeLines_skip other.symm field]
      exact ih later p

end Cursor

/-! ### The lines of a title -/

open Cursor

def regLine : Text := "REG"

def fieldLine : Text := "FIELD"

/-- Lines among which no title, register or field begins. -/
structure Undivided (own : List Text) : Prop where
  title : titleLine ∉ own
  reg : regLine ∉ own
  field : fieldLine ∉ own

theorem head?_tokens {more : List Text} (opens : ∀ l ∈ more.head?, l = regLine ∨ l = fieldLine) :
    ∀ l ∈ (tokens more).head?, l = .reg ∨ l = .field := by
  cases more with
  | nil => simp [tokens]
  | cons l more =>
    rcases opens l rfl with rfl | rfl
    · rintro _ ⟨⟩
      exact .inl rfl
    · rintro _ ⟨⟩
      exact .inr rfl

/-- A title is well formed or not whatever registers and fields follow. -/
theorem readHeading_tokens (pre more : List Text)
    (opens : ∀ l ∈ more.head?, l = regLine ∨ l = fieldLine) :
    readHeading (tokens (pre ++ more)) =
      { readHeading (tokens pre) with rest := (readHeading (tokens pre)).rest ++ tokens more } := by
  rw [tokens_append, readHeading_append]
  intro l first
  rcases head?_tokens opens l first with rfl | rfl <;> rfl

theorem heading_append (pre more : List Text)
    (opens : ∀ l ∈ more.head?, l = regLine ∨ l = fieldLine) :
    (readHeading (tokens (pre ++ more))).heading = (readHeading (tokens pre)).heading ∧
      (readHeading (tokens (pre ++ more))).warnings = (readHeading (tokens pre)).warnings := by
  rw [readHeading_tokens pre more opens]
  exact ⟨rfl, rfl⟩

/-- How far the lines after a title line bring the group of a heading. -/
def progress (h : Heading) (body : List Text) : Progress :=
  takeLines h.name {} (readHeading (tokens body)).rest

variable {h : Heading}

theorem parse_title {body : List Text} (inside : titleLine ∉ body)
    (formed : (readHeading (tokens body)).heading = some h) :
    parse (titleLine :: body) =
      (⟨[(progress h body).group h], none, .empty⟩,
        (readHeading (tokens body)).warnings ++ (progress h body).warnings) := by
  rw [parse_block inside, readGroup_eq, formed]
  rfl

theorem progress_append (h : Heading) (pre more : List Text)
    (opens : ∀ l ∈ more.head?, l = regLine ∨ l = fieldLine) :
    progress h (pre ++ more) = takeLines h.name (progress h pre) (tokens more) := by
  unfold progress
  rw [readHeading_tokens pre more opens]
  exact takeLines_append _ _ (head?_tokens opens)

theorem tokens_reg (own : List Text) : tokens (regLine :: own) = .reg :: tokens own := rfl

theorem tokens_field (own : List Text) : tokens (fieldLine :: own) = .field :: tokens own := rfl

/-- A register block is one step from where the lines before it lead. -/
theorem progress_reg (h : Heading) (pre : List Text) {own : List Text} (apart : Undivided own) :
    progress h (pre ++ regLine :: own) =
      (progress h pre).openRegister (closedBy? .endReg (tokens own)) := by
  rw [progress_append h pre _ (by simp), tokens_reg,
    takeLines_reg_own (not_mem_tokens (k := .reg) rfl apart.reg)
      (not_mem_tokens (k := .field) rfl apart.field)]

/-- So is a field block. -/
theorem progress_field (h : Heading) (pre : List Text) {own : List Text} (apart : Undivided own) :
    progress h (pre ++ fieldLine :: own) =
      (progress h pre).takeField h.name (closedBy? .endField (tokens own)) := by
  rw [progress_append h pre _ (by simp), tokens_field,
    takeLines_field_own (not_mem_tokens (k := .reg) rfl apart.reg)
      (not_mem_tokens (k := .field) rfl apart.field)]

end Gateware.RegisterMap
