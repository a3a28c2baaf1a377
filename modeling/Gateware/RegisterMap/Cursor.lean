import Gateware.RegisterMap.Parser

/-!
# Reading in one pass

The lines of a description are walked once by a cursor that never goes back: a title opens a group,
a register line ends the register before it, and the blocks of fields that follow go to the
register that is open. What a group and its registers leave over is where the reader of maps goes
on.
-/

namespace Gateware.RegisterMap.Cursor

/-- The content of a block up to `close`, and what remains. Another keyword before it leaves the
block open and remains. -/
def takeBlock (close : DescriptionLine) :
    List DescriptionLine → Option (List DescriptionLine) × List DescriptionLine
  | [] => (none, [])
  | l :: ls =>
    if l = close then (some [], ls)
    else if l.isKeyword then (none, l :: ls)
    else
      let (content, rest) := takeBlock close ls
      (content.map (l :: ·), rest)

theorem length_takeBlock (close : DescriptionLine) (ls : List DescriptionLine) :
    (takeBlock close ls).2.length ≤ ls.length := by
  fun_induction takeBlock close ls with
  | case1 => exact Nat.le_refl _
  | case2 ls => exact Nat.le_succ _
  | case3 l ls _ _ => exact Nat.le_refl _
  | case4 l ls _ _ content rest taken ih =>
    rw [taken] at ih
    exact Nat.le_succ_of_le ih

/-! ### Registers -/

/-- What the next block of fields belongs to. -/
inductive Pending where
  /-- There was no register line yet. -/
  | nothing
  /-- The register was malformed; its fields are dropped. -/
  | skipped
  | register (r : Register)

def Pending.register? : Pending → Option Register
  | .register r => some r
  | _ => none

/-- The register with the fields at the end of its own. -/
def pushFields (fields : List Field) : Register → Register
  | .imported r => .imported { r with fields := r.fields ++ fields }
  | .concrete r => .concrete { r with
      fields := r.fields ++ fields
      parameters := r.parameters.union (fieldParameters fields) }

/-- A group while its lines are read. -/
structure Progress where
  registers : List Register := []
  pending : Pending := .nothing
  tags : List Text := []
  warnings : List ParseWarning := []

namespace Progress

/-- The registers with the one that is open. -/
def allRegisters (p : Progress) : List Register := p.registers ++ p.pending.register?.toList

/-- The register that was open ends, and the one of the block follows it. -/
def openRegister (p : Progress) (block : Option (List DescriptionLine)) : Progress :=
  let (register, warnings) := match block with
    | none => (none, [ParseWarning.unterminatedRegister])
    | some content => readRegisterBody content
  { p with
    registers := p.allRegisters
    pending := (register.map Pending.register).getD .skipped
    warnings := p.warnings ++ warnings }

def takeField (group : Text) (p : Progress) (block : Option (List DescriptionLine)) : Progress :=
  match p.pending with
  | .nothing => { p with warnings := p.warnings ++ [.fieldOutsideRegister group] }
  | .skipped => p
  | .register r =>
    let field : FieldBlock := match block with
      | none => .skipped [.unterminatedField r.name]
      | some content => readFieldBody r.name content
    { p with
      pending := .register (pushFields field.fields r)
      tags := field.tags.foldl addTag p.tags
      warnings := p.warnings ++ field.warnings }

end Progress

/-- The registers of a group, up to the next title line, which remains. -/
def readRegisters (group : Text) (p : Progress) (ls : List DescriptionLine) :
    Progress × List DescriptionLine :=
  match ls with
  | [] => (p, [])
  | .title :: ls => (p, .title :: ls)
  | .reg :: ls =>
    have := length_takeBlock .endReg ls
    readRegisters group (p.openRegister (takeBlock .endReg ls).1) (takeBlock .endReg ls).2
  | .field :: ls =>
    have := length_takeBlock .endField ls
    readRegisters group (p.takeField group (takeBlock .endField ls).1) (takeBlock .endField ls).2
  | _ :: ls => readRegisters group p ls
termination_by ls.length
decreasing_by all_goals simp only [List.length_cons]; omega

theorem length_readRegisters (group : Text) (p : Progress) (ls : List DescriptionLine) :
    (readRegisters group p ls).2.length ≤ ls.length := by
  fun_induction readRegisters group p ls with
  | case1 => exact Nat.le_refl _
  | case2 => exact Nat.le_refl _
  | case3 p ls shorter ih => exact Nat.le_succ_of_le (Nat.le_trans ih shorter)
  | case4 p ls shorter ih => exact Nat.le_succ_of_le (Nat.le_trans ih shorter)
  | case5 p l ls _ _ _ ih => exact Nat.le_succ_of_le ih

/-! ### Groups -/

/-- What a title block says about its group. -/
structure Heading where
  title : Text
  name : Text
  uses : List Text

/-- What a title block gives, and the lines after it. -/
structure HeadingPart where
  heading : Option Heading
  warnings : List ParseWarning
  rest : List DescriptionLine

/-- The lines after a title line: the groups to import from, the title and the name. -/
def readHeading (ls : List DescriptionLine) : HeadingPart :=
  let header := ls.takeWhile DescriptionLine.isUses
  let uses := header.filterMap usedGroup?
  let warnings := List.replicate (header.length - uses.length) ParseWarning.malformedUses
  match ls.dropWhile DescriptionLine.isUses with
  | .text title :: .text name :: rest => ⟨some ⟨title, name, uses⟩, warnings, rest⟩
  | .text _ :: rest => ⟨none, warnings ++ [.malformedTitle], rest⟩
  | rest => ⟨none, warnings ++ [.malformedTitle], rest⟩

theorem length_readHeading (ls : List DescriptionLine) :
    (readHeading ls).rest.length ≤ ls.length := by
  have shorter := (List.dropWhile_suffix DescriptionLine.isUses (l := ls)).length_le
  unfold readHeading
  simp only
  split <;> simp_all <;> omega

def Progress.group (p : Progress) (h : Heading) : Group where
  title := h.title
  name := h.name
  uses := h.uses
  registers := p.allRegisters
  accessTypes := p.tags

/-- The groups of a map and the warnings, after those that are known. -/
def readGroups (known : List Group × List ParseWarning) (ls : List DescriptionLine) :
    List Group × List ParseWarning :=
  match ls with
  | [] => known
  | .title :: ls =>
    have := length_readHeading ls
    let part := readHeading ls
    match part.heading with
    | none => readGroups (known.1, known.2 ++ part.warnings) part.rest
    | some heading =>
      have := length_readRegisters heading.name {} (readHeading ls).rest
      let read := readRegisters heading.name {} part.rest
      let group := read.1.group heading
      let replaced : List ParseWarning :=
        if known.1.any (·.name == group.name) then [.duplicateTitle group.name] else []
      readGroups
        (addGroup known.1 group, known.2 ++ (part.warnings ++ read.1.warnings) ++ replaced) read.2
  | _ :: ls => readGroups known ls
termination_by ls.length
decreasing_by all_goals simp only [List.length_cons]; omega

def parse (lines : List Text) : RegisterMap × List ParseWarning :=
  let (groups, warnings) := readGroups ([], []) ((DescriptionLine.number 1 lines).map Prod.snd)
  ({ groups, modified := none, owners := .empty }, warnings)

end Gateware.RegisterMap.Cursor
