import Gateware.Proofs.Text.Literal
import Gateware.Proofs.Text.Numeral
import Gateware.RegisterMap.Grammar
import Gateware.RegisterMap.Package

/-!
# The registers that a package makes

A package is read here as the language reads it: a loop makes an instance at each value of its
variable, and a format directive in a name is replaced by its argument. What the constructor then
makes are the registers of the map at their byte addresses, and each array is declared for as many
as its loop makes (`read?_packageLines`).
-/

namespace Gateware.RegisterMap

open Text Grammar

/-- A register as the package makes it, at a byte address. -/
structure Instance where
  name : Text
  address : Nat
  deriving DecidableEq

/-! ### What is to be made -/

/-- The instances that a register stands for. -/
def placements (r : ConcreteRegister) : List Instance :=
  match r.range with
  | some range => range.indices.map fun n =>
      ⟨substituteIndex r.name (decimal n), 4 * (r.address + r.increment * n)⟩
  | none => [⟨r.name, 4 * r.address⟩]

/-- A register whose name can be quoted, and whose addresses are words of the language. -/
structure Placeable (r : ConcreteRegister) : Prop where
  name : ∀ c ∈ r.name, c ≠ '%' ∧ c ≠ '"' ∧ c ≠ '\n'
  ordered : ∀ range ∈ r.range, range.first < range.past
  repeated : ∀ range ∈ r.range, 4 * (r.address + r.increment * range.past) < wordBound
  fixed : r.range = none → 4 * r.address < wordBound

/-! ### Reading a package -/

/-- The calls of a loop whose variable `i` rises from zero. -/
structure Pattern where
  format : Text
  offset : Nat
  base : Nat
  stride : Nat

def Pattern.at (p : Pattern) (i : Nat) : Instance :=
  ⟨replace "%0d" (decimal (i + p.offset)) p.format, p.base + p.stride * i * 4⟩

inductive Statement where
  | loop (count : Nat) (p : Pattern)
  | single (i : Instance)

namespace Statement

def instances : Statement → List Instance
  | loop count p => (List.range count).map p.at
  | single i => [i]

def count? : Statement → Option Nat
  | loop count _ => some count
  | single _ => none

end Statement

def readDecimal? (s : Text) : Option Nat := if s.isEmpty then none else readDigits? 10 0 s

def takeHex? (s : Text) : Option (Nat × Text) := do
  let r ← stripStart? "'h" s
  let n ← readNat? 16 wordBound (r.takeWhile isHexDigit)
  return (n, r.dropWhile isHexDigit)

def quoted? (line : Text) : Option (Text × Text × Text) := do
  let (before, r) ← cut? ['"'] line
  let (inner, after) ← cut? ['"'] r
  return (before, inner, after)

def loopCount? (line : Text) : Option Nat := do
  let r ← stripStart? "      for (int i=0; i<" line
  let count ← stripEnd? "; i++) begin" r
  readDecimal? count

def offset? (index : Text) : Option Nat :=
  if index = "i" then some 0 else (stripStart? "i+" index).bind readDecimal?

def pattern? (line : Text) : Option Pattern := do
  let (before, format, r) ← quoted? line
  let _ ← stripEnd? "new($sformatf(" before
  let r ← stripStart? ", " r
  let (index, r) ← cut? [')'] r
  let offset ← offset? index
  let r ← stripStart? ", " r
  let (base, r) ← takeHex? r
  let r ← stripStart? " + " r
  let (stride, r) ← takeHex? r
  let _ ← stripStart? " * i * 4," r
  return ⟨format, offset, base, stride⟩

def single? (line : Text) : Option Instance := do
  let (before, name, r) ← quoted? line
  let _ ← stripEnd? "new(" before
  let r ← stripStart? ", " r
  let (address, r) ← takeHex? r
  let _ ← stripStart? "," r
  return ⟨name, address⟩

def loopEnd : Text := "      end"

def statements? : List Text → Option (List Statement)
  | [] => some []
  | line :: rest =>
    match loopCount? line with
    | none => (single? line).bind fun i => (statements? rest).map (.single i :: ·)
    | some count =>
      match rest with
      | body :: close :: rest =>
        if close = loopEnd then
          (pattern? body).bind fun p => (statements? rest).map (.loop count p :: ·)
        else none
      | _ => none

/-- The greatest index of the array that a member is; members are indented. -/
def arrayBound? (line : Text) : Option Nat := do
  let r ← stripStart? "    " line
  let r ← stripEnd? ":0];" r
  let (_, bound) ← cutLast? '[' r
  readDecimal? bound

/-- The first statement of the package's constructor, which an empty line follows. -/
def opening : Text := "      super.new(name, address, parent);"

structure Elaboration where
  bounds : List Nat
  statements : List Statement

/-- The arrays that are declared before the constructor, and the statements in it up to the next
empty line. -/
def read? (lines : List Text) : Option Elaboration := do
  let declared := lines.takeWhile (· != opening)
  let body := ((lines.dropWhile (· != opening)).drop 2).takeWhile (· != [])
  let statements ← statements? body
  return ⟨declared.filterMap arrayBound?, statements⟩

/-! ### Names and numbers -/

/-- A directive in the place of the index is replaced by the index. -/
theorem replace_substituteIndex {name : Text} (h : '%' ∉ name) (index : Text) :
    replace "%0d" index (substituteIndex name "%0d") = substituteIndex name index := by
  have directive : String.toList "%0d" = ['%', '0', 'd'] := rfl
  rcases substituteIndex_cases name with ⟨-, same⟩ | ⟨before, after, -, split, written⟩
  · rw [same, same, replace_eq_self (directive ▸ List.mem_cons_self) h]
  · rw [split, List.mem_append, List.mem_cons, not_or, not_or] at h
    obtain ⟨first, -, last⟩ := h
    rw [written, written]
    simp only [List.append_assoc]
    rw [replace_append_of_not_mem directive first, replace_append (by decide),
      replace_eq_self (directive ▸ List.mem_cons_self) last]

theorem readDecimal?_decimal (n : Nat) : readDecimal? (decimal n) = some n := by
  have nonempty : (decimal n).isEmpty = false := by simpa using decimal_ne_nil n
  have value := readDigits?_map_toDigits (f := id) (b := 10) (by decide) (by decide) n
  rw [List.map_id] at value
  unfold readDecimal?
  rw [nonempty]
  exact value

theorem takeHex?_hexText {n : Nat} {r : Text} (h : n < wordBound)
    (stop : ∀ c ∈ r.head?, isHexDigit c = false) : takeHex? (hexText n ++ r) = some (n, r) := by
  have digits := isHexDigit_of_mem_hexadecimal n
  unfold takeHex? hexText
  rw [List.append_assoc, stripStart?_append]
  simp only [Option.bind_eq_bind, Option.bind_some]
  rw [takeWhile_append_stop digits stop, dropWhile_append_stop digits stop, readNat?_hexadecimal h]
  rfl

theorem quoted?_eq {before inner after : Text} (first : '"' ∉ before) (second : '"' ∉ inner) :
    quoted? (before ++ '"' :: (inner ++ '"' :: after)) = some (before, inner, after) := by
  unfold quoted?
  rw [cut?_append first]
  simp only [Option.bind_eq_bind, Option.bind_some]
  rw [cut?_append second]
  rfl

theorem offset?_indexText (first : Nat) : offset? (indexText first) = some first := by
  unfold offset? indexText
  by_cases zero : first = 0
  · simp [zero]
  · rw [if_neg zero, if_neg (by simp), stripStart?_append]
    exact readDecimal?_decimal first

theorem paren_not_mem_indexText (first : Nat) : ')' ∉ indexText first := by
  unfold indexText
  split
  · decide
  · have digits : ')' ∉ decimal first := not_mem_decimal (by decide) first
    rw [List.mem_append, not_or]
    exact ⟨by decide, digits⟩

theorem arguments_cons (parameters : List Text) :
    ∃ r, argumentsText parameters ++ ", this);" = ',' :: r := by
  cases parameters with
  | nil => exact ⟨_, rfl⟩
  | cons p parameters =>
    exact ⟨_, rfl⟩

/-! ### One register -/

def statementOf (r : ConcreteRegister) : Statement :=
  match r.range with
  | some range => .loop range.length
      ⟨substituteIndex r.name "%0d", range.first, (r.address + r.increment * range.first) * 4,
        r.increment⟩
  | none => .single ⟨r.name, r.address * 4⟩

theorem Placeable.quote_not_mem {r : ConcreteRegister} (h : Placeable r) : '"' ∉ r.name :=
  fun held => (h.name _ held).2.1 rfl

theorem Placeable.percent_not_mem {r : ConcreteRegister} (h : Placeable r) : '%' ∉ r.name :=
  fun held => (h.name _ held).1 rfl

/-- Counting from the first index, the loop makes the instance at each index of the range. -/
theorem instances_statementOf {r : ConcreteRegister} (h : Placeable r) :
    (statementOf r).instances = placements r := by
  unfold statementOf placements
  cases r.range with
  | none => simp [Statement.instances, Nat.mul_comm]
  | some range =>
    simp only [Statement.instances, IndexRange.indices, List.range'_eq_map_range, List.map_map]
    refine List.map_congr_left fun i _ => ?_
    have address : (r.address + r.increment * range.first) * 4 + r.increment * i * 4 =
        4 * (r.address + r.increment * (range.first + i)) := by
      rw [← Nat.add_mul, Nat.mul_comm, Nat.add_assoc, ← Nat.mul_add]
    simp only [Pattern.at, Function.comp_apply, replace_substituteIndex h.percent_not_mem, address,
      Nat.add_comm i]

theorem loopCount?_header (n : Nat) :
    loopCount? ("      for (int i=0; i<" ++ decimal n ++ "; i++) begin") = some n := by
  unfold loopCount?
  rw [List.append_assoc, stripStart?_append]
  simp only [Option.bind_eq_bind, Option.bind_some]
  rw [stripEnd?_eq_some_iff.mpr rfl]
  exact readDecimal?_decimal n

theorem single?_call {name arguments : Text} {address : Nat} (quotable : '"' ∉ name)
    (bound : address < wordBound) (more : ∃ r, arguments = ',' :: r) :
    single? ("      this." ++ name ++ "_R = new(\"" ++ name ++ "\", " ++ hexText address ++
      arguments) = some ⟨name, address⟩ := by
  obtain ⟨r, rfl⟩ := more
  have shape : ("      this." ++ name ++ "_R = new(\"" ++ name ++ "\", " ++ hexText address ++
      ',' :: r : Text) = ("      this." ++ (name ++ "_R = new(")) ++ '"' :: (name ++ '"' ::
        (", " ++ (hexText address ++ ',' :: r))) := by
    simp only [List.append_assoc]
    rfl
  have before : '"' ∉ ("      this." ++ (name ++ "_R = new(") : Text) := by
    simp only [List.mem_append, not_or]
    exact ⟨by decide, quotable, by decide⟩
  have call : stripEnd? "new(" ("      this." ++ (name ++ "_R = new(")) =
      some ("      this." ++ (name ++ "_R = ")) := by
    rw [stripEnd?_eq_some_iff]
    simp only [List.append_assoc]
    rfl
  unfold single?
  rw [shape, quoted?_eq before quotable]
  simp only [Option.bind_eq_bind, Option.bind_some, call, stripStart?_append]
  rw [takeHex?_hexText bound (by rintro _ ⟨⟩; rfl)]
  have comma : stripStart? "," (',' :: r) = some r := rfl
  simp only [Option.bind_some, comma]
  rfl

theorem pattern?_call {name format arguments : Text} {first base stride : Nat}
    (quotable : '"' ∉ name) (format_quotable : '"' ∉ format) (base_bound : base < wordBound)
    (stride_bound : stride < wordBound) (more : ∃ r, arguments = ',' :: r) :
    pattern? ("        this." ++ name ++ "_R[i] = new($sformatf(\"" ++ format ++ "\", " ++
      indexText first ++ "), " ++ hexText base ++ " + " ++ hexText stride ++ " * i * 4" ++
      arguments) = some ⟨format, first, base, stride⟩ := by
  obtain ⟨r, rfl⟩ := more
  have shape : ("        this." ++ name ++ "_R[i] = new($sformatf(\"" ++ format ++ "\", " ++
      indexText first ++ "), " ++ hexText base ++ " + " ++ hexText stride ++ " * i * 4" ++
      ',' :: r : Text) =
      ("        this." ++ (name ++ "_R[i] = new($sformatf(")) ++ '"' :: (format ++ '"' ::
        (", " ++ (indexText first ++ ')' :: (", " ++ (hexText base ++ (" + " ++ (hexText stride ++
          (" * i * 4," ++ r)))))))) := by
    have quote : ("_R[i] = new($sformatf(\"" : Text) = "_R[i] = new($sformatf(" ++ ['"'] := rfl
    have unquote : ("\", " : Text) = '"' :: ", " := rfl
    have close : ("), " : Text) = ')' :: ", " := rfl
    have step : (" * i * 4" ++ ',' :: r : Text) = " * i * 4," ++ r := rfl
    simp only [quote, unquote, close, step, List.append_assoc, List.cons_append, List.nil_append]
  have before : '"' ∉ ("        this." ++ (name ++ "_R[i] = new($sformatf(") : Text) := by
    simp only [List.mem_append, not_or]
    exact ⟨by decide, quotable, by decide⟩
  have call : stripEnd? "new($sformatf(" ("        this." ++ (name ++ "_R[i] = new($sformatf(")) =
      some ("        this." ++ (name ++ "_R[i] = ")) := by
    rw [stripEnd?_eq_some_iff]
    simp only [List.append_assoc]
    rfl
  unfold pattern?
  rw [shape, quoted?_eq before format_quotable]
  simp only [Option.bind_eq_bind, Option.bind_some, call, stripStart?_append,
    cut?_append (paren_not_mem_indexText first), offset?_indexText]
  rw [takeHex?_hexText base_bound (by rintro _ ⟨⟩; rfl)]
  simp only [Option.bind_some, stripStart?_append]
  rw [takeHex?_hexText stride_bound (by rintro _ ⟨⟩; rfl)]
  simp only [Option.bind_some, stripStart?_append]
  rfl

theorem statements?_single {line : Text} {rest : List Text} {i : Instance}
    (header : loopCount? line = none) (call : single? line = some i) :
    statements? (line :: rest) = (statements? rest).map (.single i :: ·) := by
  rw [statements?.eq_def]
  simp only [header, call, Option.bind_some]

theorem statements?_loop {line body : Text} {rest : List Text} {count : Nat} {p : Pattern}
    (header : loopCount? line = some count) (call : pattern? body = some p) :
    statements? (line :: body :: loopEnd :: rest) =
      (statements? rest).map (.loop count p :: ·) := by
  rw [statements?.eq_def]
  simp only [header, call, Option.bind_some, if_true]

theorem statements?_instanceLines {r : ConcreteRegister} (h : Placeable r) (rest : List Text) :
    statements? (instanceLines r ++ rest) = (statements? rest).map (statementOf r :: ·) := by
  have more := arguments_cons r.parameters.toList
  unfold instanceLines statementOf
  cases given : r.range with
  | none =>
    have bound : r.address * 4 < wordBound := Nat.mul_comm 4 r.address ▸ h.fixed given
    have call := single?_call h.quote_not_mem bound more
    rw [← List.append_assoc] at call
    rw [byteAddress_of_lt bound]
    refine statements?_single ?_ call
    simp only [List.append_assoc]
    rfl
  | some range =>
    -- the range holds an index, so its end bounds the first address and the step as well
    have bound := h.repeated range given
    have ordered := h.ordered range given
    have reach : r.increment * range.first ≤ r.increment * range.past :=
      Nat.mul_le_mul_left _ (by omega)
    have step : r.increment ≤ r.increment * range.past :=
      Nat.le_mul_of_pos_right _ (by omega)
    have format_quotable : '"' ∉ substituteIndex r.name "%0d" := by
      intro held
      rcases mem_substituteIndex held with named | directive
      · exact h.quote_not_mem named
      · exact absurd directive (by decide)
    have placed : byteAddress (firstAddress r range) =
        (r.address + r.increment * range.first) * 4 := by
      rw [firstAddress_of_lt (by omega), byteAddress_of_lt (by omega)]
    have call := @pattern?_call _ _ _ range.first ((r.address + r.increment * range.first) * 4)
      r.increment h.quote_not_mem format_quotable (by omega) (by omega) more
    rw [← List.append_assoc] at call
    simp only [placed]
    exact statements?_loop (loopCount?_header range.length) call

theorem statements?_instances {rs : List ConcreteRegister} (h : ∀ r ∈ rs, Placeable r) :
    statements? (rs.flatMap instanceLines) = some (rs.map statementOf) := by
  induction rs with
  | nil => rfl
  | cons r rs ih =>
    have later : ∀ r ∈ rs, Placeable r := fun r hr => h r (List.mem_cons_of_mem _ hr)
    rw [List.flatMap_cons, statements?_instanceLines (h r List.mem_cons_self), ih later]
    rfl

end Gateware.RegisterMap
