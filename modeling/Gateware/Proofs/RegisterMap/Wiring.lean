import Gateware.Proofs.RegisterMap.ClosedClasses
import Gateware.Proofs.RegisterMap.Placement
import Gateware.Proofs.RegisterMap.SmokeTest
import Gateware.Proofs.Text.Lines

/-!
# What a package hands to its registers

The text of a package is read here for what each of its constructors declares and for what each
instance is given. The classes and the package declare the parameters of the registers and of the
map, and an instance is given what its class declares (`wiring?_packageLines`), whatever the names
are as long as lines and arguments can be told apart.
-/

namespace Gateware

open Text

/-! ### Texts that can be told apart -/

/-- What is printed of the field is within one line. -/
structure ConcreteField.Unbroken (f : ConcreteField) : Prop where
  name : OneLine f.name
  bounds : ∀ high low, f.bits = .span high low → OneLine high.text ∧ OneLine low.text
  tag : OneLine f.access.kind.tag
  reset : ∀ short long, f.reset = some (.expr short long) → OneLine long

namespace RegisterMap

/-- What is printed of the map is within one line, and its names within one argument. -/
structure Unbroken (m : RegisterMap) : Prop where
  titles : ∀ g ∈ m.groups, OneLine g.title
  names : ∀ r ∈ m.concreteRegisters, OneLine r.name ∧ ',' ∉ r.name
  parameters : ∀ r ∈ m.concreteRegisters, ∀ p ∈ r.parameters, OneLine p ∧ ',' ∉ p
  fields : ∀ r ∈ m.concreteRegisters, ∀ f ∈ classFields r, f.Unbroken

/-! ### Reading a package -/

/-- What the first lines tell, up to one that tells nothing. -/
def leading (f : Text → Option Text) : List Text → List Text
  | [] => []
  | line :: ls =>
    match f line with
    | some a => a :: leading f ls
    | none => []

/-- The integers that a constructor declares behind its address. -/
def integersAfter (address before : Text) (ls : List Text) : List Text :=
  leading (between? before ",") ((ls.dropWhile (· != address)).drop 1)

/-- The lines behind the last place of a line. -/
def behindLast (line : Text) (ls : List Text) : List Text :=
  (ls.reverse.takeWhile (· != line)).reverse

/-- A class, with the parameters of its constructor. -/
structure Class where
  name : Text
  parameters : List Text
deriving DecidableEq

def classHead? (line : Text) : Option Text :=
  between? "    class " "_CLASS extends register_base;" line

def classes : List Text → List Class
  | [] => []
  | line :: ls =>
    match classHead? line with
    | some name =>
      ⟨name, integersAfter "        input int address," "        input int " ls⟩ :: classes ls
    | none => classes ls

/-- A statement makes a register, on its own or in a loop. -/
def isCall (line : Text) : Bool := startsWith "      this." line || startsWith "        this." line

/-- The classes of a package, the parameters of its constructor, and the statements in it that make
registers. -/
structure Wiring where
  classes : List Class
  parameters : List Text
  calls : List Text
deriving DecidableEq

/-- What the lines of a package say, behind those that are the same for every map. -/
def Wiring.read (ls : List Text) : Wiring :=
  let declared := ls.takeWhile (· != opening)
  let body := ((ls.dropWhile (· != opening)).drop 2).takeWhile (· != [])
  { classes := RegisterMap.classes declared
    parameters := integersAfter "      input int address," "      input int "
      (behindLast "    function new(" declared)
    calls := body.filter isCall }

/-- The first lines of a package, which say nothing about the map. -/
def headLines (key : Text) (stamp : Stamp) : List Text :=
  List.flatten [termsOfUse, banner stamp,
    ["package " ++ packageName key ++ ";", "  import logger_pkg::*;", "  import adi_api_pkg::*;", [],
      "  class " ++ className key ++ " extends adi_regmap;", []]]

def wiring? (key : Text) (stamp : Stamp) (text : Text) : Option Wiring :=
  (stripStart? (unlines (headLines key stamp)) text).map fun body => .read (lines body)

/-! ### Reading a call -/

/-- The arguments of a call behind the first ones and before the last one, which is `this`. -/
def passed? (first : Nat) (call : Text) : Option (List Text) :=
  match ((pieces (· == ',') call).drop first).reverse with
  | [] => none
  | last :: rest => if last = " this);" then rest.reverse.mapM (stripStart? [' ']) else none

/-- What the member of a class is given between its address and `this`. The name of a repeated one
takes two arguments. -/
def arguments? (name line : Text) : Option (List Text) :=
  ((stripStart? ("      this." ++ name ++ "_R = new(") line).bind (passed? 2)).or
    ((stripStart? ("        this." ++ name ++ "_R[i] = new($sformatf(") line).bind (passed? 3))

/-- The call gives the class just what its constructor declares. -/
def Class.Constructs (c : Class) (line : Text) : Prop := arguments? c.name line = some c.parameters

instance (c : Class) (line : Text) : Decidable (c.Constructs line) :=
  inferInstanceAs (Decidable (_ = _))

/-! ### Constructors -/

theorem leading_map_append {f : Text → Option Text} {line : Text → Text}
    (told : ∀ a, f (line a) = some a) {rest : List Text} (stop : ∀ l ∈ rest.head?, f l = none)
    (as : List Text) : leading f (as.map line ++ rest) = as := by
  induction as with
  | nil =>
    cases rest with
    | nil => rfl
    | cons l rest => simp [leading, stop l (by simp)]
  | cons a as ih => simp [leading, told, ih]

theorem integersAfter_append {address before : Text} {front rest : List Text}
    (apart : ∀ line ∈ front, line ≠ address)
    (stop : ∀ line ∈ rest.head?, between? before "," line = none) (ps : List Text) :
    integersAfter address before
      (front ++ address :: (ps.map (fun p => before ++ p ++ ",") ++ rest)) = ps := by
  obtain ⟨-, behind⟩ := cut_at_first apart (ps.map (fun p => before ++ p ++ ",") ++ rest)
  unfold integersAfter
  rw [behind]
  exact leading_map_append (fun p => between?_append before p ",") stop ps

/-! ### Classes -/

def classOf (r : ConcreteRegister) : Class := ⟨r.name, r.parameters.toList⟩

theorem classes_append {front : List Text} (quiet : ∀ line ∈ front, classHead? line = none)
    (ls : List Text) : classes (front ++ ls) = classes ls := by
  induction front with
  | nil => rfl
  | cons line front ih =>
    obtain ⟨first, rest⟩ := List.forall_mem_cons.mp quiet
    rw [List.cons_append, classes, first]
    exact ih rest

/-- The lines of a class between its first one and the address of its constructor. -/
def classFront (r : ConcreteRegister) : List Text :=
  List.flatten [(classFields r).map memberLine,
    [[], "      function new(", "        input string name,"]]

/-- The lines of a class behind the parameters of its constructor. -/
def classBack (r : ConcreteRegister) : List Text :=
  List.flatten [
    ["        input adi_regmap parent = null);", [], "        super.new(name, address, parent);", []],
    (classFields r).map memberInstanceLine,
    [[], "        this.initialization_done = 1;", "      endfunction: new",
      "    endclass: " ++ r.name ++ "_CLASS", []]]

theorem classLines_eq (r : ConcreteRegister) :
    classLines r = ("    class " ++ r.name ++ "_CLASS extends register_base;") ::
      (classFront r ++ ("        input int address," : Text) ::
        (r.parameters.toList.map inputLine ++ classBack r)) := by
  unfold classLines classFront classBack
  simp only [List.flatten_cons, List.flatten_nil, List.append_nil, List.append_assoc,
    List.cons_append, List.nil_append]
  rfl

theorem classHead?_classFront (r : ConcreteRegister) :
    ∀ line ∈ classFront r, classHead? line = none := by
  unfold classFront
  simp only [List.flatten_cons, List.flatten_nil, List.append_nil, List.forall_mem_append,
    List.forall_mem_map, List.forall_mem_cons]
  exact ⟨fun f _ => rfl, by decide, by decide, by decide, nofun⟩

theorem classHead?_classBack (r : ConcreteRegister) :
    ∀ line ∈ classBack r, classHead? line = none := by
  unfold classBack
  simp only [List.flatten_cons, List.flatten_nil, List.append_nil, List.forall_mem_append,
    List.forall_mem_map, List.forall_mem_cons]
  exact ⟨⟨by decide, by decide, by decide, by decide, nofun⟩, fun f _ => rfl, by decide, by decide,
    by decide, rfl, by decide, nofun⟩

theorem classes_classLines (r : ConcreteRegister) (ls : List Text) :
    classes (classLines r ++ ls) = classOf r :: classes ls := by
  have apart : ∀ line ∈ classFront r, line ≠ ("        input int address," : Text) := by
    unfold classFront
    simp only [List.flatten_cons, List.flatten_nil, List.append_nil, List.forall_mem_append,
      List.forall_mem_map, List.forall_mem_cons]
    refine ⟨fun f _ same => ?_, by decide, by decide, by decide, nofun⟩
    exact absurd (congrArg (stripStart? "      field_base ") same) nofun
  have parent : ∀ line ∈ (classBack r ++ ls).head?, between? "        input int " "," line = none := by
    rintro _ ⟨⟩
    decide
  have parameters := integersAfter_append apart parent r.parameters.toList
  have head : classHead? ("    class " ++ r.name ++ "_CLASS extends register_base;") = some r.name :=
    between?_append ..
  have quiet : ∀ line ∈ classFront r ++ ("        input int address," : Text) ::
      (r.parameters.toList.map inputLine ++ classBack r), classHead? line = none := by
    simp only [List.forall_mem_append, List.forall_mem_cons, List.forall_mem_map]
    exact ⟨classHead?_classFront r, by decide, fun p _ => rfl, classHead?_classBack r⟩
  have later := classes_append quiet ls
  rw [classLines_eq, List.cons_append, classes, head]
  simp only [later]
  simp only [List.append_assoc, List.cons_append] at parameters ⊢
  exact congrArg (fun ps => Class.mk r.name ps :: classes ls) parameters

theorem classes_registers (rs : List ConcreteRegister) (ls : List Text) :
    classes (rs.flatMap classLines ++ ls) = rs.map classOf ++ classes ls := by
  induction rs with
  | nil => rfl
  | cons r rs ih =>
    rw [List.flatMap_cons, List.append_assoc, classes_classLines, ih, List.map_cons, List.cons_append]

theorem classes_groups (gs : List Group) (ls : List Text) :
    classes (gs.flatMap groupClassLines ++ ls) =
      (gs.flatMap Group.concreteRegisters).map classOf ++ classes ls := by
  induction gs with
  | nil => rfl
  | cons g gs ih =>
    have title : classHead? ("    /* " ++ g.title ++ " */") = none := rfl
    rw [List.flatMap_cons, List.append_assoc, groupClassLines, List.cons_append, classes, title]
    simp only [classes_registers, ih, List.flatMap_cons, List.map_append, List.append_assoc]

/-! ### Lines that open no class -/

theorem between?_eq_none {before after last line : Text} (ends : last <:+ line)
    (apart : ¬ last <:+ after ∧ ¬ after <:+ last) : between? before after line = none := by
  rw [Option.eq_none_iff_forall_ne_some]
  intro key found
  obtain ⟨rest, starts, inner⟩ := Option.bind_eq_some_iff.mp found
  rw [stripStart?_eq_some_iff] at starts
  rw [stripEnd?_eq_some_iff] at inner
  have other : after <:+ line := ⟨before ++ key, by rw [starts, inner, List.append_assoc]⟩
  rcases List.suffix_or_suffix_of_suffix ends other with h | h
  · exact apart.1 h
  · exact apart.2 h

theorem classHead?_declarationLine (r : ConcreteRegister) : classHead? (declarationLine r) = none := by
  cases given : r.range with
  | none => exact between?_eq_none (declarationLine_ends given) (by decide)
  | some range =>
    have ends : (":0];" : Text) <:+ declarationLine r := by
      unfold declarationLine
      rw [given]
      exact List.suffix_append ..
    exact between?_eq_none ends (by decide)

theorem classHead?_headerLines (m : RegisterMap) :
    ∀ line ∈ headerLines m, classHead? line = none := by
  unfold headerLines
  simp only [List.flatten_cons, List.flatten_nil, List.append_nil, List.forall_mem_append,
    List.forall_mem_map, List.forall_mem_cons]
  exact ⟨⟨by decide, by decide, by decide, by decide, nofun⟩, fun p _ => rfl, by decide, by decide,
    nofun⟩

/-! ### The constructor of the package -/

theorem behindLast_append {line : Text} {rest : List Text} (apart : ∀ l ∈ rest, l ≠ line)
    (front : List Text) : behindLast line (front ++ line :: rest) = rest := by
  obtain ⟨behind, -⟩ := cut_at_first (fun l hl => apart l (List.mem_reverse.mp hl)) front.reverse
  have turned : (front ++ line :: rest).reverse = rest.reverse ++ line :: front.reverse := by simp
  unfold behindLast
  rw [turned, behind, List.reverse_reverse]

/-- The lines of the package's constructor between its first one and its first statement. -/
def inputLines (m : RegisterMap) : List Text :=
  List.flatten [
    ["      input string name,", "      input int address,"],
    m.parameters.toList.map fun p => "      input int " ++ p ++ ",",
    ["      input adi_api parent = null);", []]]

theorem headerLines_eq (m : RegisterMap) :
    headerLines m = [[], "    function new(".toList] ++ inputLines m := by
  unfold headerLines inputLines
  simp only [List.flatten_cons, List.flatten_nil, List.append_nil, List.cons_append,
    List.nil_append]

theorem integersAfter_inputLines (m : RegisterMap) :
    integersAfter "      input int address," "      input int " (inputLines m) =
      m.parameters.toList := by
  have address : ∀ line ∈ ["      input string name,".toList],
      line ≠ ("      input int address," : Text) := by decide
  have parent : ∀ line ∈ ["      input adi_api parent = null);".toList, []].head?,
      between? "      input int " "," line = none := by
    rintro _ ⟨⟩
    decide
  exact integersAfter_append address parent m.parameters.toList

/-- No line of the constructor opens another one. -/
theorem ne_function_of_mem_inputLines (m : RegisterMap) :
    ∀ line ∈ inputLines m, line ≠ ("    function new(" : Text) := by
  unfold inputLines
  simp only [List.flatten_cons, List.flatten_nil, List.append_nil, List.forall_mem_append,
    List.forall_mem_cons, List.forall_mem_map]
  refine ⟨⟨by decide, by decide, nofun⟩, fun p _ same => ?_, by decide, by decide, nofun⟩
  exact absurd (congrArg (stripStart? "      input int ") same) nofun

theorem parameters_headerLines (m : RegisterMap) (front : List Text) :
    integersAfter "      input int address," "      input int "
      (behindLast "    function new(" (front ++ headerLines m)) = m.parameters.toList := by
  have constructor := behindLast_append (ne_function_of_mem_inputLines m) (front ++ [[]])
  have lines : front ++ headerLines m =
      (front ++ [[]]) ++ "    function new(".toList :: inputLines m := by
    rw [headerLines_eq, List.append_assoc]
    rfl
  rw [lines, constructor, integersAfter_inputLines]

/-! ### Numbers in a call -/

theorem not_mem_hexText {c : Char} (mark : c ∉ ("'h" : Text)) (other : isHexDigit c = false)
    (n : Nat) : c ∉ hexText n := by
  have digits : c ∉ hexadecimal n := fun held =>
    absurd (isHexDigit_of_mem_hexadecimal n c held) (by simp [other])
  unfold hexText
  rw [List.mem_append, not_or]
  exact ⟨mark, digits⟩

theorem not_mem_indexText {c : Char} (sign : c ∉ ("i+" : Text))
    (other : ∀ d, d < 10 → d.digitChar ≠ c) (first : Nat) : c ∉ indexText first := by
  unfold indexText
  split
  · exact fun held => sign (List.mem_append_left ['+'] held)
  · rw [List.mem_append, not_or]
    exact ⟨sign, not_mem_decimal other first⟩

theorem comma_not_mem_hexText (n : Nat) : ',' ∉ hexText n :=
  not_mem_hexText (by decide) (by decide) n

theorem oneLine_hexText (n : Nat) : OneLine (hexText n) := not_mem_hexText (by decide) (by decide) n

/-! ### Calls -/

theorem mapM_stripStart? (p : Text) (ts : List Text) :
    (ts.map (p ++ ·)).mapM (stripStart? p) = some ts := by
  induction ts with
  | nil => rfl
  | cons t ts ih => simp [ih]

theorem pieces_plain {t : Text} (h : ',' ∉ t) : pieces (· == ',') t = [t] :=
  pieces_eq_singleton fun _ hc => beq_eq_false_iff_ne.mpr fun same => h (same ▸ hc)

theorem pieces_comma {front : Text} (first : ',' ∉ front) (rest : Text) :
    pieces (· == ',') (front ++ ',' :: rest) = front :: pieces (· == ',') rest := by
  rw [pieces_append_sep (by decide), pieces_plain first, List.singleton_append]

/-- The pieces of a call from some argument on. -/
theorem pieces_arguments {ps : List Text} (plain : ∀ p ∈ ps, ',' ∉ p) {front : Text}
    (first : ',' ∉ front) :
    pieces (· == ',') (front ++ (argumentsText ps ++ ", this);")) =
      front :: (ps.map ([' '] ++ ·) ++ [" this);".toList]) := by
  induction ps generalizing front with
  | nil =>
    have cut : front ++ (argumentsText [] ++ ", this);") = front ++ ',' :: " this);".toList := rfl
    rw [cut, pieces_comma first, pieces_plain (by decide), List.map_nil, List.nil_append]
  | cons p ps ih =>
    obtain ⟨argument, arguments⟩ := List.forall_mem_cons.mp plain
    have cut : front ++ (argumentsText (p :: ps) ++ ", this);") =
        front ++ ',' :: (([' '] ++ p) ++ (argumentsText ps ++ ", this);")) := by
      simp [argumentsText]
    rw [cut, pieces_comma first, ih arguments (by simpa using argument)]
    rfl

/-- The arguments are read behind those in front of the address and the address. -/
theorem passed?_call {fs ps : List Text} {address : Text} (front : ∀ f ∈ fs, ',' ∉ f)
    (plain : ',' ∉ address) (parameters : ∀ p ∈ ps, ',' ∉ p) :
    passed? (fs.length + 1)
      (fs.flatMap (· ++ [',']) ++ (address ++ (argumentsText ps ++ ", this);"))) = some ps := by
  have cut : pieces (· == ',')
      (fs.flatMap (· ++ [',']) ++ (address ++ (argumentsText ps ++ ", this);"))) =
      fs ++ address :: (ps.map ([' '] ++ ·) ++ [" this);".toList]) := by
    induction fs with
    | nil => exact pieces_arguments parameters plain
    | cons f fs ih =>
      obtain ⟨first, front⟩ := List.forall_mem_cons.mp front
      have shape (rest : Text) : (f :: fs).flatMap (· ++ [',']) ++ rest =
          f ++ ',' :: (fs.flatMap (· ++ [',']) ++ rest) := by simp
      rw [shape, pieces_comma first, ih front, List.cons_append]
  have reversed : (ps.map ([' '] ++ ·) ++ [" this);".toList]).reverse =
      " this);".toList :: (ps.map ([' '] ++ ·)).reverse := List.reverse_concat ..
  have behind : (fs ++ address :: (ps.map ([' '] ++ ·) ++ [" this);".toList])).drop (fs.length + 1) =
      ps.map ([' '] ++ ·) ++ [" this);".toList] := by simp
  unfold passed?
  rw [cut, behind, reversed]
  simp only [if_pos, List.reverse_reverse]
  exact mapM_stripStart? [' '] ps

theorem Class.constructs_single {c : Class} {call : Text} (h : passed? 2 call = some c.parameters) :
    c.Constructs ("      this." ++ c.name ++ "_R = new(" ++ call) := by
  unfold Constructs arguments?
  rw [stripStart?_append, Option.bind_some, h, Option.some_or]

theorem Class.constructs_repeated {c : Class} {call : Text}
    (h : passed? 3 call = some c.parameters) :
    c.Constructs ("        this." ++ c.name ++ "_R[i] = new($sformatf(" ++ call) := by
  have other : stripStart? ("      this." ++ c.name ++ "_R = new(")
      ("        this." ++ c.name ++ "_R[i] = new($sformatf(" ++ call) = none := rfl
  unfold Constructs arguments?
  rw [other, Option.bind_none, Option.none_or, stripStart?_append, Option.bind_some, h]

theorem filter_loop (count call : Text) :
    [("      for (int i=0; i<" ++ count ++ "; i++) begin" : Text), "        this." ++ call,
      "      end"].filter isCall = [("        this." ++ call : Text)] := rfl

/-- A register is made by one statement, which gives it what its class declares. -/
theorem constructs_instanceLines {r : ConcreteRegister} (name : ',' ∉ r.name)
    (parameters : ∀ p ∈ r.parameters, ',' ∉ p) :
    ∃ line, (instanceLines r).filter isCall = [line] ∧ (classOf r).Constructs line := by
  have comma : ("\", " : Text) = "\"" ++ ([','] ++ " ") := by decide
  unfold instanceLines
  cases r.range with
  | none =>
    have quoted : ',' ∉ ("\"" ++ r.name ++ "\"" : Text) := by simpa using name
    have address : ',' ∉ (" " ++ hexText (byteAddress r.address) : Text) := by
      simpa using comma_not_mem_hexText _
    have read := passed?_call (List.forall_mem_singleton.mpr quoted) address parameters
    have made := Class.constructs_single (c := classOf r) read
    have opens : ("_R = new(\"" : Text) = "_R = new(" ++ "\"" := by decide
    rw [comma, opens]
    simp only [List.append_assoc, List.flatMap_cons, List.flatMap_nil, List.nil_append] at made ⊢
    exact ⟨_, rfl, made⟩
  | some range =>
    have quoted : ',' ∉ ("\"" ++ substituteIndex r.name "%0d" ++ "\"" : Text) := by
      have inner : ',' ∉ substituteIndex r.name "%0d" := fun held =>
        (mem_substituteIndex held).elim name (by decide)
      simpa using inner
    have index : ',' ∉ (" " ++ indexText range.first ++ ")" : Text) := by
      simpa using not_mem_indexText (by decide) (by decide) range.first
    have address : ',' ∉ (" " ++ hexText (byteAddress (firstAddress r range)) ++ " + " ++
        hexText r.increment ++ " * i * 4" : Text) := by
      simpa using ⟨comma_not_mem_hexText _, comma_not_mem_hexText _⟩
    have read := passed?_call (List.forall_mem_cons.mpr ⟨quoted, List.forall_mem_singleton.mpr index⟩)
      address parameters
    have made := Class.constructs_repeated (c := classOf r) read
    have opens : ("_R[i] = new($sformatf(\"" : Text) = "_R[i] = new($sformatf(" ++ "\"" := by decide
    have closes : ("), " : Text) = ")" ++ ([','] ++ " ") := by decide
    simp only [comma, opens, closes, List.append_assoc, List.flatMap_cons, List.flatMap_nil,
      List.nil_append] at made ⊢
    exact ⟨_, filter_loop .., made⟩

example : (Class.mk "LANEn" ["ID", "WIDTH"]).Constructs
    "        this.LANEn_R[i] = new($sformatf(\"LANE%0d\", i), 'h80 + 'h4 * i * 4, ID, WIDTH, this);" := by
  decide

theorem forall₂_constructs {rs : List ConcreteRegister} (names : ∀ r ∈ rs, ',' ∉ r.name)
    (parameters : ∀ r ∈ rs, ∀ p ∈ r.parameters, ',' ∉ p) :
    List.Forall₂ Class.Constructs (rs.map classOf) ((rs.flatMap instanceLines).filter isCall) := by
  induction rs with
  | nil => exact .nil
  | cons r rs ih =>
    obtain ⟨name, names⟩ := List.forall_mem_cons.mp names
    obtain ⟨own, parameters⟩ := List.forall_mem_cons.mp parameters
    obtain ⟨line, call, constructs⟩ := constructs_instanceLines name own
    rw [List.flatMap_cons, List.filter_append, call, List.map_cons, List.singleton_append]
    exact .cons constructs (ih names parameters)

/-! ### Whole lines -/

theorem oneLine_decimal (n : Nat) : OneLine (decimal n) := not_mem_decimal (by decide) n

theorem oneLine_argumentsText {ps : List Text} (h : ∀ p ∈ ps, OneLine p) :
    OneLine (argumentsText ps) := by
  induction ps with
  | nil => exact List.not_mem_nil
  | cons p ps ih =>
    obtain ⟨first, rest⟩ := List.forall_mem_cons.mp h
    exact oneLine_append.mpr ⟨oneLine_append.mpr ⟨by decide, first⟩, ih rest⟩

theorem oneLine_memberInstanceLine {f : ConcreteField} (h : f.Unbroken) :
    OneLine (memberInstanceLine f) := by
  have bits : OneLine (bitsText f.bits) := by
    cases shape : f.bits with
    | indexed => decide
    | span high low =>
      obtain ⟨first, last⟩ := h.bounds high low shape
      have printed : OneLine (high.text ++ ", " ++ low.text) :=
        oneLine_append.mpr ⟨oneLine_append.mpr ⟨first, by decide⟩, last⟩
      exact fun held => (mem_replace (by decide) held).elim printed List.not_mem_nil
  have reset : OneLine (resetText f.reset) := by
    cases shape : f.reset with
    | none => decide
    | some d =>
      cases d with
      | hex value => exact oneLine_hexText value
      | expr short long => exact h.reset short long shape
  unfold memberInstanceLine
  simp only [oneLine_append]
  exact ⟨⟨⟨⟨⟨⟨⟨⟨⟨⟨by decide, h.name⟩, by decide⟩, h.name⟩, by decide⟩, bits⟩, by decide⟩, h.tag⟩, by decide⟩,
    reset⟩, by decide⟩

theorem oneLine_classLines {r : ConcreteRegister} (name : OneLine r.name)
    (parameters : ∀ p ∈ r.parameters, OneLine p) (fields : ∀ f ∈ classFields r, f.Unbroken) :
    ∀ line ∈ classLines r, OneLine line := by
  have around {first inner last : Text} (h : OneLine inner) (ends : OneLine first ∧ OneLine last) :
      OneLine (first ++ inner ++ last) :=
    oneLine_append.mpr ⟨oneLine_append.mpr ⟨ends.1, h⟩, ends.2⟩
  unfold classLines
  simp only [List.flatten_cons, List.flatten_nil, List.append_nil, List.forall_mem_append,
    List.forall_mem_cons, List.forall_mem_map]
  exact ⟨⟨around name (by decide), nofun⟩, fun f hf => around (fields f hf).name (by decide),
    by decide, fun p hp => around (parameters p hp) (by decide), by decide,
    fun f hf => oneLine_memberInstanceLine (fields f hf),
    ⟨by decide, by decide, by decide, around name (by decide), by decide, nofun⟩⟩

theorem oneLine_declarationLine {r : ConcreteRegister} (name : OneLine r.name) :
    OneLine (declarationLine r) := by
  have member : OneLine ("    " ++ r.name ++ "_CLASS " ++ r.name ++ "_R") := by
    simp only [oneLine_append]
    exact ⟨⟨⟨⟨by decide, name⟩, by decide⟩, name⟩, by decide⟩
  unfold declarationLine
  cases r.range with
  | none => exact oneLine_append.mpr ⟨member, by decide⟩
  | some range =>
    exact oneLine_append.mpr ⟨oneLine_append.mpr ⟨oneLine_append.mpr ⟨member, by decide⟩,
      oneLine_decimal _⟩, by decide⟩

theorem oneLine_instanceLines {r : ConcreteRegister} (name : OneLine r.name)
    (parameters : ∀ p ∈ r.parameters, OneLine p) : ∀ line ∈ instanceLines r, OneLine line := by
  have arguments := oneLine_argumentsText parameters
  unfold instanceLines
  cases r.range with
  | none =>
    simp only [List.forall_mem_cons, oneLine_append]
    exact ⟨⟨⟨⟨⟨⟨⟨⟨by decide, name⟩, by decide⟩, name⟩, by decide⟩, oneLine_hexText _⟩, arguments⟩,
      by decide⟩, nofun⟩
  | some range =>
    have format : OneLine (substituteIndex r.name "%0d") := fun held =>
      (mem_substituteIndex held).elim name (by decide)
    have index : OneLine (indexText range.first) := not_mem_indexText (by decide) (by decide) _
    simp only [List.forall_mem_cons, oneLine_append]
    exact ⟨⟨⟨by decide, oneLine_decimal _⟩, by decide⟩,
      ⟨⟨⟨⟨⟨⟨⟨⟨⟨⟨⟨⟨by decide, name⟩, by decide⟩, format⟩, by decide⟩, index⟩, by decide⟩,
        oneLine_hexText _⟩, by decide⟩, oneLine_hexText _⟩, by decide⟩, arguments⟩, by decide⟩,
      by decide, nofun⟩

/-! ### The package -/

/-- The lines of a package between its first ones and its last ones. -/
def middleLines (m : RegisterMap) : List Text :=
  (m.groups.flatMap groupClassLines ++ m.concreteRegisters.map declarationLine ++ headerLines m) ++
    opening :: [] :: (m.concreteRegisters.flatMap instanceLines ++ [[]])

theorem packageLines_eq_middle (key : Text) (m : RegisterMap) (stamp : Stamp) :
    packageLines key m stamp = headLines key stamp ++ (middleLines m ++ closingLines key) := by
  have leading : leadingLines key m stamp =
      headLines key stamp ++ m.groups.flatMap groupClassLines := by
    unfold leadingLines headLines
    simp only [List.flatten_cons, List.flatten_nil, List.append_nil, List.append_assoc]
  rw [packageLines_eq, leading]
  unfold middleLines
  simp only [List.append_assoc, List.cons_append, List.nil_append]

theorem mem_parameters {m : RegisterMap} {p : Text} :
    p ∈ m.parameters ↔ ∃ r ∈ m.concreteRegisters, p ∈ r.parameters := by
  unfold parameters
  rw [KeySet.mem_ofList, List.mem_flatMap]
  rfl

theorem Unbroken.oneLine_middleLines {m : RegisterMap} (h : m.Unbroken) :
    ∀ line ∈ middleLines m, OneLine line := by
  have names : ∀ r ∈ m.concreteRegisters, OneLine r.name := fun r hr => (h.names r hr).1
  have parameters : ∀ r ∈ m.concreteRegisters, ∀ p ∈ r.parameters, OneLine p :=
    fun r hr p hp => (h.parameters r hr p hp).1
  have own {g : Group} (hg : g ∈ m.groups) {r : ConcreteRegister} (hr : r ∈ g.concreteRegisters) :
      r ∈ m.concreteRegisters := List.mem_flatMap.mpr ⟨g, hg, hr⟩
  unfold middleLines headerLines
  simp only [List.flatten_cons, List.flatten_nil, List.append_nil, List.forall_mem_append,
    List.forall_mem_cons, List.forall_mem_map]
  refine ⟨⟨⟨fun line held => ?_, fun r hr => oneLine_declarationLine (names r hr)⟩,
    ⟨by decide, by decide, by decide, by decide, nofun⟩, fun p hp => ?_, by decide, by decide, nofun⟩,
    by decide, by decide, fun line held => ?_, by decide, nofun⟩
  · obtain ⟨g, hg, held⟩ := List.mem_flatMap.mp held
    rcases List.mem_cons.mp held with rfl | held
    · exact oneLine_append.mpr ⟨oneLine_append.mpr ⟨by decide, h.titles g hg⟩, by decide⟩
    · obtain ⟨r, hr, held⟩ := List.mem_flatMap.mp held
      have inMap := own hg hr
      exact oneLine_classLines (names r inMap) (parameters r inMap) (h.fields r inMap) line held
  · obtain ⟨r, hr, held⟩ := mem_parameters.mp hp
    exact oneLine_append.mpr ⟨oneLine_append.mpr ⟨by decide, parameters r hr p held⟩, by decide⟩
  · obtain ⟨r, hr, held⟩ := List.mem_flatMap.mp held
    exact oneLine_instanceLines (names r hr) (parameters r hr) line held

/-- What the package of a map says. -/
def wiringOf (m : RegisterMap) : Wiring where
  classes := m.concreteRegisters.map classOf
  parameters := m.parameters.toList
  calls := (m.concreteRegisters.flatMap instanceLines).filter isCall

theorem read_middleLines (m : RegisterMap) (rest : List Text) :
    Wiring.read (middleLines m ++ rest) = wiringOf m := by
  have declared : ∀ line ∈ m.groups.flatMap groupClassLines ++
      m.concreteRegisters.map declarationLine ++ headerLines m, line ≠ opening := by
    simp only [List.forall_mem_append, List.forall_mem_map]
    refine ⟨⟨fun line held => ?_, fun r _ => declarationLine_ne_opening r⟩,
      fun line held => (quiet_headerLines m line held).ne_opening⟩
    obtain ⟨g, -, held⟩ := List.mem_flatMap.mp held
    exact (quiet_groupClassLines g line held).ne_opening
  have made : ∀ line ∈ m.concreteRegisters.flatMap instanceLines, line ≠ [] := by
    intro line held
    obtain ⟨r, -, held⟩ := List.mem_flatMap.mp held
    exact instanceLines_ne_nil r line held
  have quiet : ∀ line ∈ m.concreteRegisters.map declarationLine ++ headerLines m,
      classHead? line = none := by
    simp only [List.forall_mem_append, List.forall_mem_map]
    exact ⟨fun r _ => classHead?_declarationLine r, classHead?_headerLines m⟩
  have classes : classes (m.groups.flatMap groupClassLines ++
      (m.concreteRegisters.map declarationLine ++ headerLines m)) = m.concreteRegisters.map classOf := by
    rw [classes_groups, ← List.append_nil (m.concreteRegisters.map declarationLine ++ _),
      classes_append quiet]
    exact List.append_nil _
  have lines : middleLines m ++ rest = (m.groups.flatMap groupClassLines ++
      m.concreteRegisters.map declarationLine ++ headerLines m) ++
        opening :: [] :: (m.concreteRegisters.flatMap instanceLines ++ [] :: rest) := by
    unfold middleLines
    simp only [List.append_assoc, List.cons_append, List.nil_append]
  obtain ⟨before, after⟩ := cut_at_first declared
    ([] :: (m.concreteRegisters.flatMap instanceLines ++ [] :: rest))
  obtain ⟨body, -⟩ := cut_at_first made rest
  unfold Wiring.read wiringOf
  rw [lines, before, after]
  simp only [List.drop_succ_cons, List.drop_zero, body, parameters_headerLines]
  rw [List.append_assoc, classes]

/-- The package of a map says which parameters its registers and the map have, whatever the key and
the stamp hold. -/
theorem wiring?_packageLines {m : RegisterMap} (h : m.Unbroken) (key : Text) (stamp : Stamp) :
    wiring? key stamp (unlines (packageLines key m stamp)) = some (wiringOf m) := by
  unfold wiring?
  rw [packageLines_eq_middle, unlines_append, stripStart?_append, Option.map_some, unlines_append,
    lines_unlines_append h.oneLine_middleLines, read_middleLines]

theorem Unbroken.constructs {m : RegisterMap} (h : m.Unbroken) :
    List.Forall₂ Class.Constructs (wiringOf m).classes (wiringOf m).calls :=
  forall₂_constructs (fun r hr => (h.names r hr).2) fun r hr p hp => (h.parameters r hr p hp).2

end RegisterMap

end Gateware
