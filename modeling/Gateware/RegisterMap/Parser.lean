import Gateware.RegisterMap.Basic
import Gateware.RegisterMap.Grammar
import Gateware.RegisterMap.Line
import Gateware.RegisterMap.Warning

/-!
# Reading register descriptions

A description is cut at its title lines into blocks, a block at its register lines, and the lines
of a register at its field lines. Each piece is read on its own, so a malformed one damages no
other.
-/

namespace Gateware.RegisterMap

open Text

/-! ### Blocks -/

/-- The lines before the first opening line, and those after each of them. -/
def cutAt (opens : DescriptionLine → Bool) :
    List DescriptionLine → List DescriptionLine × List (List DescriptionLine)
  | [] => ([], [])
  | l :: ls =>
    let (lead, blocks) := cutAt opens ls
    if opens l then ([], lead :: blocks) else (l :: lead, blocks)

/-- The content of a block that `close` ends; another keyword before it leaves the block open. -/
def closedBy? (close : DescriptionLine) (ls : List DescriptionLine) :
    Option (List DescriptionLine) :=
  if (ls.dropWhile fun l => !l.isKeyword).head? = some close then
    some (ls.takeWhile fun l => !l.isKeyword)
  else none

/-- The range that a line gives, with a warning when it is of no use. -/
def readRange (line context : Text) : Option IndexRange × List ParseWarning :=
  match Grammar.range? line with
  | some r => if r.isEmpty then (none, [.emptyRange line context]) else (some r, [])
  | none => (none, [.malformedRange line context])

/-- What a block says about its range of indices, and the lines after that. -/
structure RangePart where
  range : Option IndexRange
  /-- Whether there is a line for the range, be it of use or not. -/
  given : Bool
  warnings : List ParseWarning
  rest : List DescriptionLine

def takeRange (context : Text) (ls : List DescriptionLine) : RangePart :=
  match ls with
  | .range line :: rest =>
    let (range, warnings) := readRange line context
    ⟨range, true, warnings, rest⟩
  | rest => ⟨none, false, [], rest⟩

/-! ### Fields -/

/-- What a field block adds to its register and to the access types of its group. -/
structure FieldBlock where
  fields : List Field
  tags : List Text
  warnings : List ParseWarning

def FieldBlock.skipped (warnings : List ParseWarning) : FieldBlock := ⟨[], [], warnings⟩

/-- The bits between the brackets; bounds in the wrong order are swapped. -/
def readBits (spec register : Text) : Bits × List ParseWarning :=
  if spec = "n" then (.indexed, [])
  else
    let (high, low) := (cut? ":" spec).getD (spec, spec)
    match Grammar.bound high, Grammar.bound low with
    | .num h, .num l =>
      if h < l then (.span (.num l) (.num h), [.invertedBits spec register])
      else (.span (.num h) (.num l), [])
    | high, low => (.span high low, [])

/-- A reset value that is no number is kept as documented and as generated. -/
def readReset (reset : Text) (bits : Bits) (register : Text) : FieldDefault × List ParseWarning :=
  match Grammar.hexLiteral? reset with
  | some value =>
    let overflows := bits.width?.any fun w => w < bitLength value
    (.hex value, if overflows then [.resetOverflow reset bits register] else [])
  | none =>
    let quotes := (findAll (fun _ s => (stripStart? "''" s).map fun r => ((), r)) reset).length
    (.expr (replace "''" "``" reset) (replace "0x" "'h" (replace "''" "" reset)),
      if quotes % 2 = 0 then [] else [.unbalancedQuotes reset register])

/-- The tags that an access type adds to its group: a volatile field has one of its own, and an
unknown kind has none. -/
def accessTags (a : Access) : List Text :=
  (if a.volatile then [AccessKind.v.tag] else []) ++
    (if a.kind.isKnown then [a.kind.tag] else [])

/-- A field block whose first line opens with a bracket. -/
def readConcreteField (register first : Text) (rest : List DescriptionLine) : FieldBlock :=
  match Grammar.fieldSpec? first with
  | none => .skipped [.malformedBits first register]
  | some spec =>
    let (bits, bitWarnings) := readBits spec.bits register
    let part := takeRange register rest
    let warnings := bitWarnings ++ part.warnings
    match bits, part.range with
    | .indexed, none =>
      .skipped (warnings ++ if part.given then [] else [.indexedWithoutRange register])
    | bits, range =>
      let warnings := warnings ++
        if bits ≠ .indexed ∧ range.isSome then [.rangeWithoutIndex spec.bits register] else []
      match part.rest with
      | .text name :: .text tag :: description =>
        let name := replace "/" "or" name
        let access := Access.ofTag tag
        let reset := spec.reset.map fun r => readReset r bits register
        { fields := [.concrete {
            name, bits, access, range,
            reset := reset.map Prod.fst
            description := description.map DescriptionLine.content }]
          tags := accessTags access
          warnings := warnings ++
            (if access.kind.isKnown then [] else [.unknownAccess tag name register]) ++
            (reset.map Prod.snd).getD [] }
      | _ => .skipped (warnings ++ [.malformedField first register])

/-- The lines of a closed field block: a field of its own, or the names of imported ones. -/
def readFieldBody (register : Text) (content : List DescriptionLine) : FieldBlock :=
  let imports := content.map fun l => Field.imported l.content
  match content with
  | .text first :: rest =>
    if startsWith "[" first then readConcreteField register first rest else ⟨imports, [], []⟩
  | _ => ⟨imports, [], []⟩

/-- The lines after a field line. -/
def readField (register : Text) (ls : List DescriptionLine) : FieldBlock :=
  match closedBy? .endField ls with
  | some content => readFieldBody register content
  | none => .skipped [.unterminatedField register]

/-! ### Registers -/

/-- The address line of a register, with warnings where it and its range do not agree. -/
def readAddress (line name : Text) (part : RangePart) : Nat × Nat × List ParseWarning :=
  match Grammar.address? line with
  | some a =>
    let warnings : List ParseWarning :=
      if a.step.isSome ∧ ¬ part.given then [.steppedWithoutRange line name]
      else if a.step.isNone ∧ part.range.isSome then [.rangeWithoutStep line name]
      else []
    (a.base, a.step.getD 0, warnings)
  | none => (0, 0, [.malformedAddress line name])

/-- The block of a register: one at an address, or the name of an imported one. Its fields are
still to come. -/
def readRegisterBody (content : List DescriptionLine) : Option Register × List ParseWarning :=
  match content with
  | .text first :: rest =>
    if startsWith "0x" first then
      let part := takeRange first rest
      match part.rest with
      | .text name :: description =>
        let (address, increment, warnings) := readAddress first name part
        (some (.concrete {
          name, address, increment,
          description := description.map DescriptionLine.content
          fields := [], range := part.range, parameters := .empty }), part.warnings ++ warnings)
      | _ => (none, part.warnings ++ [.malformedRegister first])
    else
      match cut? "." first with
      | some (source, name) => (some (.imported ⟨name, some source, []⟩), [])
      | none => (some (.imported ⟨first, none, []⟩), [])
  | _ => (none, [.emptyRegister])

def withFields (fields : List Field) : Register → Register
  | .imported r => .imported { r with fields }
  | .concrete r => .concrete { r with fields, parameters := fieldParameters fields }

/-- What the lines of a register add to its group. -/
structure RegisterBlock where
  register : Option Register
  tags : List Text
  warnings : List ParseWarning

/-- The lines after a register line, up to the next one. The fields of a malformed register are
passed over. -/
def readRegister (ls : List DescriptionLine) : RegisterBlock :=
  let (own, fieldBlocks) := cutAt (· = .field) ls
  match closedBy? .endReg own with
  | none => ⟨none, [], [.unterminatedRegister]⟩
  | some content =>
    match readRegisterBody content with
    | (none, warnings) => ⟨none, [], warnings⟩
    | (some register, warnings) =>
      let blocks := fieldBlocks.map (readField register.name)
      ⟨some (withFields (blocks.flatMap FieldBlock.fields) register),
        blocks.flatMap FieldBlock.tags, warnings ++ blocks.flatMap FieldBlock.warnings⟩

/-! ### Groups -/

def readGroupBody (title name : Text) (uses : List Text) (ls : List DescriptionLine) :
    Group × List ParseWarning :=
  let (lead, registerBlocks) := cutAt (· = .reg) ls
  let strays := (cutAt (· = .field) lead).2.map fun _ => ParseWarning.fieldOutsideRegister name
  let blocks := registerBlocks.map readRegister
  ({ title, name, uses,
     registers := blocks.filterMap RegisterBlock.register
     accessTypes := (blocks.flatMap RegisterBlock.tags).foldl addTag [] },
    strays ++ blocks.flatMap RegisterBlock.warnings)

/-- The name of a group to import from, when the line gives one. -/
def usedGroup? : DescriptionLine → Option Text
  | .uses group => if group.isEmpty then none else some group
  | _ => none

/-- The lines after a title line, up to the next one. -/
def readGroup (ls : List DescriptionLine) : Option Group × List ParseWarning :=
  let header := ls.takeWhile DescriptionLine.isUses
  let uses := header.filterMap usedGroup?
  let warnings := List.replicate (header.length - uses.length) ParseWarning.malformedUses
  match ls.dropWhile DescriptionLine.isUses with
  | .text title :: .text name :: rest =>
    let (group, more) := readGroupBody title name uses rest
    (some group, warnings ++ more)
  | _ => (none, warnings ++ [.malformedTitle])

/-! ### Maps -/

/-- The groups with one more, which replaces a group of the same name at its place. -/
def addGroup (groups : List Group) (group : Group) : List Group :=
  if groups.any (·.name == group.name) then
    groups.map fun g => if g.name == group.name then group else g
  else groups ++ [group]

def addBlock (acc : List Group × List ParseWarning) (block : List DescriptionLine) :
    List Group × List ParseWarning :=
  match readGroup block with
  | (none, warnings) => (acc.1, acc.2 ++ warnings)
  | (some group, warnings) =>
    let replaced : List ParseWarning :=
      if acc.1.any (·.name == group.name) then [.duplicateTitle group.name] else []
    (addGroup acc.1 group, acc.2 ++ warnings ++ replaced)

/-- The map that a list of description lines gives; what stands before the first title line is
passed over. -/
def ofDescription (ls : List DescriptionLine) : RegisterMap × List ParseWarning :=
  let (groups, warnings) := ((cutAt (· = .title) ls).2).foldl addBlock ([], [])
  ({ groups, modified := none, owners := .empty }, warnings)

def parse (lines : List Text) : RegisterMap × List ParseWarning :=
  ofDescription ((DescriptionLine.number 1 lines).map Prod.snd)

end Gateware.RegisterMap
