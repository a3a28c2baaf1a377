import Gateware.Proofs.RegisterMap.Wiring
import Gateware.Proofs.Repository.Packages

/-!
# The files of a map agree on its parameters

The macros beside a package list its parameters, and the smoke test gives each package a zero for
each of them. All of these lists are the one that the constructor of the package declares
(`files_agree`).
-/

namespace Gateware.RegisterMap

open Text

/-! ### Reading the macros -/

/-- The names of a list that stands one name to a line, with a comma and a backslash at the end of
every line but the last. -/
def listed? (before body : Text) : Option (List Text) :=
  match pieces (· == ',') body with
  | [] => none
  | first :: others => do
    let name ← stripStart? before first
    let names ← others.mapM (stripStart? (" \\\n" ++ before))
    return name :: names

/-- The names that a macro lists up to the next empty line, and the text behind that. -/
def definition? (start before s : Text) : Option (List Text × Text) := do
  let r ← stripStart? start s
  let (body, r) ← cut? "\n\n" r
  let names ← listed? before body
  return (names, r)

/-- The lists of the three macros. -/
structure Definitions where
  imports : List Text
  declared : List Text
  ordered : List Text
deriving DecidableEq

/-- The lines in front of the macros. -/
def definitionsHead (key : Text) (stamp : Stamp) : List Text :=
  List.flatten [termsOfUse, banner stamp, [
    "`timescale 1ns/1ps", [],
    "`ifndef _" ++ upper (packageName key) ++ "_DEFINITIONS_SVH_",
    "`define _" ++ upper (packageName key) ++ "_DEFINITIONS_SVH_", [],
    "// Help build VIP Interface parameters name"]]

def definitions? (key : Text) (stamp : Stamp) (text : Text) : Option Definitions := do
  let r ← stripStart? (unlines (definitionsHead key stamp)) text
  let define : Text := "`define " ++ upper (packageName key)
  let (imports, r) ← definition? (define ++ "_PARAM_IMPORT(n)") "  n``.inst." r
  let (declared, r) ← definition? (define ++ "_PARAM_DECL int") "  " r
  let (ordered, _) ← definition? (define ++ "_PARAM_ORDER") "  " r
  return ⟨imports, declared, ordered⟩

/-! ### One list -/

/-- A list as a macro has it. -/
def listing (before : Text) (ps : List Text) : Text := joinWith ", \\\n" (ps.map fun p => before ++ p)

theorem listing_cons_cons (before p q : Text) (ps : List Text) :
    listing before (p :: q :: ps) = before ++ p ++ (", \\\n" ++ listing before (q :: ps)) := by
  simp [listing, joinWith]

/-- A blank line is not within a line. -/
theorem cut?_oneLine {l : Text} (whole : OneLine l) (s : Text) :
    cut? "\n\n" (l ++ s) = (cut? "\n\n" s).map fun (b, r) => (l ++ b, r) := by
  induction l with
  | nil => simp
  | cons c l ih =>
    obtain ⟨other, rest⟩ := List.ne_and_not_mem_of_not_mem_cons whole
    have miss : stripStart? "\n\n" (c :: (l ++ s)) = none := if_neg other
    rw [List.cons_append, cut?, miss]
    simp only [ih rest, Option.map_map]
    rfl

theorem cut?_lineEnd {c : Char} (other : '\n' ≠ c) (s : Text) :
    cut? "\n\n" ('\n' :: c :: s) = (cut? "\n\n" (c :: s)).map fun (b, r) => ('\n' :: b, r) := by
  have miss : stripStart? "\n\n" ('\n' :: c :: s) = none := by simp [stripStart?, other]
  rw [cut?, miss]

variable {before : Text} {ps : List Text}

theorem exists_listing (indented : before.head? = some ' ') (p : Text) (ps : List Text) :
    ∃ s, listing before (p :: ps) = ' ' :: s := by
  cases before with
  | nil => cases indented
  | cons c before =>
    cases indented
    cases ps with
    | nil => exact ⟨_, rfl⟩
    | cons q ps => exact ⟨_, listing_cons_cons ..⟩

/-- An indented list ends at the empty line behind it. -/
theorem cut?_listing (indented : before.head? = some ' ') (whole : OneLine before)
    (lines : ∀ p ∈ ps, OneLine p) (nonempty : ps ≠ []) (r : Text) :
    cut? "\n\n" (listing before ps ++ ("\n\n" ++ r)) = some (listing before ps, r) := by
  induction ps with
  | nil => exact absurd rfl nonempty
  | cons p ps ih =>
    obtain ⟨first, rest⟩ := List.forall_mem_cons.mp lines
    have line : OneLine (before ++ p) := oneLine_append.mpr ⟨whole, first⟩
    cases ps with
    | nil =>
      have last : cut? "\n\n" ("\n\n" ++ r) = some ([], r) := rfl
      change cut? "\n\n" (before ++ p ++ _) = some (before ++ p, r)
      rw [cut?_oneLine line, last]
      simp only [Option.map_some, List.append_nil]
    | cons q ps =>
      -- the next line is indented, so the line feed in front of it ends no list
      obtain ⟨s, next⟩ := exists_listing indented q ps
      have tied : OneLine (before ++ p ++ ", \\") := oneLine_append.mpr ⟨line, by decide⟩
      have shape (t : Text) : before ++ p ++ (", \\\n" ++ t) = before ++ p ++ ", \\" ++ '\n' :: t := by
        simp
      have later := ih rest (List.cons_ne_nil q ps)
      rw [next, List.cons_append] at later
      rw [listing_cons_cons, shape, List.append_assoc, cut?_oneLine tied, next, List.cons_append,
        List.cons_append, cut?_lineEnd (by decide), later]
      rfl

theorem pieces_listing (plain : ',' ∉ before) {p : Text} (first : ',' ∉ p)
    (names : ∀ q ∈ ps, ',' ∉ q) {front : Text} (tied : ',' ∉ front) :
    pieces (· == ',') (front ++ listing before (p :: ps)) =
      (front ++ (before ++ p)) :: ps.map ((" \\\n" ++ before) ++ ·) := by
  have line : ',' ∉ front ++ (before ++ p) := by simp [plain, first, tied]
  induction ps generalizing front p with
  | nil => exact pieces_plain line
  | cons q ps ih =>
    obtain ⟨next, names⟩ := List.forall_mem_cons.mp names
    have tie : ',' ∉ (" \\\n" : Text) := by decide
    have shape : front ++ listing before (p :: q :: ps) =
        front ++ (before ++ p) ++ ',' :: (" \\\n" ++ listing before (q :: ps)) := by
      rw [listing_cons_cons]
      simp
    rw [shape, pieces_comma line, ih next names tie (by simp [plain, next])]
    simp

theorem listed?_listing (plain : ',' ∉ before) (names : ∀ p ∈ ps, ',' ∉ p) (nonempty : ps ≠ []) :
    listed? before (listing before ps) = some ps := by
  cases ps with
  | nil => exact absurd rfl nonempty
  | cons p ps =>
    obtain ⟨first, names⟩ := List.forall_mem_cons.mp names
    have cut := pieces_listing plain first names (List.not_mem_nil (a := ','))
    rw [List.nil_append, List.nil_append] at cut
    unfold listed?
    rw [cut]
    simp only [stripStart?_append, mapM_stripStart?]
    rfl

theorem definition?_listing (indented : before.head? = some ' ') (whole : OneLine before ∧ ',' ∉ before)
    (names : ∀ p ∈ ps, OneLine p ∧ ',' ∉ p) (nonempty : ps ≠ []) (start r : Text) :
    definition? start before (start ++ (listing before ps ++ ("\n\n" ++ r))) = some (ps, r) := by
  have cut := cut?_listing indented whole.1 (fun p hp => (names p hp).1) nonempty r
  have read := listed?_listing whole.2 (fun p hp => (names p hp).2) nonempty
  unfold definition?
  rw [stripStart?_append]
  simp only [Option.bind_eq_bind, Option.bind_some, cut, read]
  rfl

/-! ### The macros -/

/-- A macro with its list, and the empty line behind it. -/
def defined (define kind before : Text) (ps : List Text) (r : Text) : Text :=
  define ++ kind ++ (listing before ps ++ ("\n\n" ++ r))

theorem macroLines?_eq {key : Text} {m : RegisterMap} {stamp : Stamp} {lines : List Text}
    (made : macroLines? key m stamp = some lines) :
    let define : Text := "`define " ++ upper (packageName key)
    let ps := m.parameters.toList
    ps ≠ [] ∧ unlines lines = unlines (definitionsHead key stamp) ++
      defined define "_PARAM_IMPORT(n)" "  n``.inst." ps (defined define "_PARAM_DECL int" "  " ps
        (defined define "_PARAM_ORDER" "  " ps "`endif\n")) := by
  unfold macroLines? at made
  dsimp only at made
  split at made
  · cases made
  · rename_i some_parameter
    cases made
    refine ⟨fun none => some_parameter (List.isEmpty_iff.mpr none), ?_⟩
    have blank : ("\n\n" : Text) = ['\n', '\n'] := by decide
    have ended : ("`endif\n" : Text) = "`endif" ++ ['\n'] := by decide
    unfold definitionsHead defined listing
    simp only [blank, ended, unlines, List.flatten_cons, List.flatten_nil, List.append_nil,
      List.flatMap_append, List.flatMap_cons, List.flatMap_nil, List.append_assoc, List.cons_append,
      List.nil_append]

theorem definitions?_macroLines {key : Text} {m : RegisterMap} {stamp : Stamp} (h : m.Unbroken)
    {lines : List Text} (made : macroLines? key m stamp = some lines) :
    definitions? key stamp (unlines lines) =
      some ⟨m.parameters.toList, m.parameters.toList, m.parameters.toList⟩ := by
  obtain ⟨nonempty, text⟩ := macroLines?_eq made
  have names : ∀ p ∈ m.parameters.toList, OneLine p ∧ ',' ∉ p := by
    intro p hp
    obtain ⟨r, hr, held⟩ := mem_parameters.mp hp
    exact h.parameters r hr p held
  have listed {before : Text} (indented : before.head? = some ' ')
      (whole : OneLine before ∧ ',' ∉ before) (define kind r : Text) :
      definition? (define ++ kind) before (defined define kind before m.parameters.toList r) =
        some (m.parameters.toList, r) :=
    definition?_listing indented whole names nonempty (define ++ kind) r
  unfold definitions?
  rw [text, stripStart?_append]
  simp only [Option.bind_eq_bind, Option.bind_some]
  rw [listed (by decide) (by decide)]
  simp only [Option.bind_some]
  rw [listed (by decide) (by decide)]
  simp only [Option.bind_some]
  rw [listed (by decide) (by decide)]
  rfl

/-! ### The smoke test -/

/-- How many zeros a text starts with as arguments after another one, and what follows them. -/
def zeros : Text → Nat × Text
  | ',' :: ' ' :: '0' :: s => ((zeros s).1 + 1, (zeros s).2)
  | s => (0, s)

/-- How many zeros the object of each key is constructed with, behind its address. -/
def constructions? : (keys : List Text) → Text → Option (List Nat)
  | [], _ => some []
  | key :: keys, s => do
    let r ← stripStart? ("    adi_regmap_" ++ key ++ "_rm = new(\"" ++ key ++ "\", 0") s
    let next ← stripStart? ");\n" (zeros r).2
    let counts ← constructions? keys next
    return (zeros r).1 :: counts

/-- The lines of the program in front of the constructions. -/
def programHead (keys : List Text) : List Text :=
  List.flatten [
    ["`include \"utils.svh\"", [], "import logger_pkg::*;"],
    keys.map fun key => "import adi_regmap_" ++ key ++ "_pkg::*;",
    [[], "module test_program;", []],
    keys.map fun key => "  adi_regmap_" ++ key ++ " adi_regmap_" ++ key ++ "_rm;",
    [[], "  initial begin", [], "    setLoggerVerbosity(ADI_VERBOSITY_NONE);", []]]

def zeroCounts? (keys : List Text) (text : Text) : Option (List Nat) :=
  (stripStart? (unlines (programHead keys)) text).bind (constructions? keys)

theorem zeros_argumentsText (ps : List Text) (s : Text) :
    zeros (argumentsText (ps.map fun _ => ['0']) ++ (");\n" ++ s)) = (ps.length, ");\n" ++ s) := by
  induction ps with
  | nil => rfl
  | cons p ps ih =>
    change zeros (',' :: ' ' :: '0' :: (argumentsText (ps.map fun _ => ['0']) ++ (");\n" ++ s))) = _
    rw [zeros, ih, List.length_cons]

theorem constructions?_constructionLines (entries : List (Text × RegisterMap)) (s : Text) :
    constructions? (entries.map Prod.fst)
      (unlines (entries.map fun e => constructionLine e.1 e.2) ++ s) =
      some (entries.map fun e => e.2.parameters.toList.length) := by
  induction entries with
  | nil => rfl
  | cons e entries ih =>
    obtain ⟨key, m⟩ := e
    have line (rest : Text) : constructionLine key m ++ ['\n'] ++ rest =
        ("    adi_regmap_" ++ key ++ "_rm = new(\"" ++ key ++ "\", 0" : Text) ++
          (argumentsText (m.parameters.toList.map fun _ => ['0']) ++ (");\n" ++ rest)) := by
      have ended : (");\n" : Text) = ");" ++ ['\n'] := by decide
      unfold constructionLine
      rw [ended]
      simp only [List.append_assoc]
    have lines : unlines (((key, m) :: entries).map fun e => constructionLine e.1 e.2) ++ s =
        constructionLine key m ++ ['\n'] ++
          (unlines (entries.map fun e => constructionLine e.1 e.2) ++ s) := by
      rw [List.map_cons, unlines, List.flatMap_cons, List.append_assoc]
      rfl
    rw [lines, line, List.map_cons, constructions?, stripStart?_append]
    simp only [Option.bind_eq_bind, Option.bind_some, zeros_argumentsText, stripStart?_append]
    rw [ih, Option.bind_some, List.map_cons]
    rfl

theorem zeroCounts?_testProgram (t : MapTable) :
    zeroCounts? t.keys (unlines (testProgram t)) =
      some (t.entries.map fun e => e.2.parameters.toList.length) := by
  have program : testProgram t = programHead t.keys ++
      ((t.entries.map fun e => constructionLine e.1 e.2) ++
        List.map String.toList ["", "    $finish();", "", "  end", "", "endmodule"]) := by
    unfold testProgram programHead
    simp only [List.flatten_cons, List.flatten_nil, List.append_nil, List.append_assoc]
    rfl
  unfold zeroCounts?
  rw [program, unlines_append, unlines_append, stripStart?_append, Option.bind_some]
  exact constructions?_constructionLines t.entries _

/-! ### All files -/

/-- The files of a map, and every smoke test with it, tell the parameters that the constructor of its
package declares. -/
structure FilesAgree (key : Text) (m : RegisterMap) (stamp : Stamp) (w : Wiring) : Prop where
  package : ∃ f ∈ outputs key m stamp, f.name = packageFile key ∧ wiring? key stamp f.text = some w
  rising : w.parameters.Pairwise fun a b => Key.lt a b = true
  union : ∀ p, p ∈ w.parameters ↔ ∃ r ∈ m.concreteRegisters, p ∈ r.parameters
  classes : w.classes = m.concreteRegisters.map classOf
  /-- The statements make the classes in their order. -/
  calls : List.Forall₂ Class.Constructs w.classes w.calls
  /-- What the classes declare is declared by the package. -/
  closed : ∀ c ∈ w.classes, ∀ p ∈ c.parameters, p ∈ w.parameters
  beside : (∃ f ∈ outputs key m stamp, f.name = definitionsFile key) ↔ w.parameters ≠ []
  listed : ∀ f ∈ outputs key m stamp, f.name = definitionsFile key →
    definitions? key stamp f.text = some ⟨w.parameters, w.parameters, w.parameters⟩
  constructed : ∀ t : MapTable, (key, m) ∈ t.entries →
    ∃ counts, zeroCounts? t.keys (unlines (testProgram t)) = some counts ∧
      (key, w.parameters.length) ∈ t.keys.zip counts

theorem exists_definitionsFile_iff {key : Text} {m : RegisterMap} {stamp : Stamp} :
    (∃ f ∈ outputs key m stamp, f.name = definitionsFile key) ↔ m.parameters.toList ≠ [] := by
  have parameters : (∃ p, p ∈ m.parameters) ↔ m.parameters.toList ≠ [] :=
    ⟨fun ⟨_, held⟩ => List.ne_nil_of_mem held, List.exists_mem_of_ne_nil _⟩
  have made : (∃ lines, macroLines? key m stamp = some lines) ↔ _ := macroLines?_isSome_iff
  rw [← parameters, ← made]
  constructor
  · rintro ⟨f, held, named⟩
    rcases mem_outputs.mp held with rfl | ⟨lines, made, rfl⟩
    · exact absurd named (packageFile_ne_definitionsFile key key)
    · exact ⟨lines, made⟩
  · rintro ⟨lines, made⟩
    exact ⟨_, mem_outputs.mpr (.inr ⟨lines, made, rfl⟩), rfl⟩

/-- The package declares the parameters of all registers, and every instance, every list of macros
and every smoke test follows it, whatever the key and the stamp hold. -/
theorem files_agree {m : RegisterMap} (h : m.Unbroken) (key : Text) (stamp : Stamp) :
    FilesAgree key m stamp (wiringOf m) where
  package := ⟨_, mem_outputs.mpr (.inl rfl), rfl, wiring?_packageLines h key stamp⟩
  rising := m.parameters.sorted
  union _ := mem_parameters
  classes := rfl
  calls := h.constructs
  closed c hc p hp := by
    obtain ⟨r, hr, rfl⟩ := List.mem_map.mp hc
    exact mem_parameters.mpr ⟨r, hr, hp⟩
  beside := exists_definitionsFile_iff
  listed f hf named := by
    rcases mem_outputs.mp hf with rfl | ⟨lines, made, rfl⟩
    · exact absurd named (packageFile_ne_definitionsFile key key)
    · exact definitions?_macroLines h made
  constructed t held := by
    have place : (key, m.parameters.toList.length) ∈
        t.entries.map fun e => (e.1, e.2.parameters.toList.length) :=
      List.mem_map.mpr ⟨(key, m), held, rfl⟩
    refine ⟨_, zeroCounts?_testProgram t, ?_⟩
    unfold Table.keys
    rw [List.zip_map']
    exact place

/-- Two registers that share a parameter, one of them repeated. -/
def linkMap : RegisterMap where
  groups := [⟨"Link", "link", [], [
    .concrete widthRegister,
    .concrete ⟨"LANEn", 32, 8, [], [.concrete widthField], some ⟨2, 4⟩, .ofList ["WIDTH", "LANES"]⟩],
    ["RO"]⟩]
  modified := none
  owners := .empty

theorem unbroken_widthField : widthField.Unbroken where
  name := by decide
  bounds := by
    rintro high low ⟨⟩
    decide
  tag := by decide
  reset := by
    rintro short long ⟨⟩
    decide

theorem unbroken_linkMap : linkMap.Unbroken where
  titles := by decide
  names := by decide +kernel
  parameters := by
    have names : ∀ r ∈ linkMap.concreteRegisters, ∀ p ∈ r.parameters.toList,
        OneLine p ∧ ',' ∉ p := by decide +kernel
    exact names
  fields := by
    have own : ∀ r ∈ linkMap.concreteRegisters, ∀ f ∈ classFields r, f = widthField := by
      decide +kernel
    exact fun r hr f hf => own r hr f hf ▸ unbroken_widthField

theorem files_agree_linkMap :
    FilesAgree "link" linkMap laneStamp (wiringOf linkMap) ∧
      (wiringOf linkMap).parameters = ["ID".toList, "LANES".toList, "WIDTH".toList] ∧
      (wiringOf linkMap).calls = [
        "      this.DATA_R = new(\"DATA\", 'h40, ID, WIDTH, this);".toList,
        "        this.LANEn_R[i] = new($sformatf(\"LANE%0d\", i+2), 'hC0 + 'h8 * i * 4, LANES, WIDTH, this);".toList] :=
  ⟨files_agree unbroken_linkMap "link" laneStamp, by decide +kernel, by decide +kernel⟩

end Gateware.RegisterMap
