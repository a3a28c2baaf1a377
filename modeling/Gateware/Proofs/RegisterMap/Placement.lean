import Gateware.Proofs.RegisterMap.Elaboration
import Mathlib.Data.List.Basic

/-!
# Where a package places its registers

What a package makes are the registers of its map at their byte addresses, and each array is
declared for as many as the loop over it makes (`read?_packageLines`). The lines that declare no
array and do not open the constructor are `Quiet`.
-/

namespace Gateware.RegisterMap

open Text

/-! ### Quiet lines -/

structure Quiet (line : Text) : Prop where
  ne_opening : line ≠ opening
  no_array : arrayBound? line = none

instance (line : Text) : Decidable (Quiet line) :=
  decidable_of_iff (line ≠ opening ∧ arrayBound? line = none)
    ⟨fun h => ⟨h.1, h.2⟩, fun h => ⟨h.ne_opening, h.no_array⟩⟩

theorem arrayBound?_eq_none {line last : Text} (ends : last <:+ line)
    (apart : ¬ last <:+ (":0];" : Text) ∧ ¬ (":0];" : Text) <:+ last) :
    arrayBound? line = none := by
  unfold arrayBound?
  rw [Option.bind_eq_bind, Option.bind_eq_none_iff]
  intro member inner
  rw [stripStart?_eq_some_iff] at inner
  have other : stripEnd? ":0];" member = none := by
    rw [Option.eq_none_iff_forall_ne_some]
    intro r h
    rw [stripEnd?_eq_some_iff] at h
    have array : (":0];" : Text) <:+ line := ⟨"    " ++ r, by rw [inner, h, List.append_assoc]⟩
    -- of two ends of one line, one is the end of the other
    rcases List.suffix_or_suffix_of_suffix ends array with h | h
    · exact apart.1 h
    · exact apart.2 h
  rw [other]
  rfl

theorem quiet_of_comment {line : Text} (h : line.head? = some '/') : Quiet line := by
  cases line with
  | nil => cases h
  | cons c rest =>
    cases h
    refine ⟨fun same => ?_, rfl⟩
    have first : opening.head? = some ' ' := head?_toList rfl
    rw [← same] at first
    cases first

theorem quiet_termsOfUse : ∀ line ∈ termsOfUse, Quiet line := by
  have comments : ∀ line ∈ termsOfUse, line.head? = some '/' := by
    unfold termsOfUse
    rw [List.forall_mem_map]
    simp only [List.forall_mem_cons]
    repeat' apply And.intro
    all_goals first | exact head?_toList rfl | nofun
  exact fun line held => quiet_of_comment (comments line held)

theorem quiet_of_ends {line first last : Text} (starts : first <+: line) (ends : last <:+ line)
    (opens : ¬ first <+: opening)
    (apart : ¬ last <:+ (":0];" : Text) ∧ ¬ (":0];" : Text) <:+ last) : Quiet line where
  ne_opening same := opens (same ▸ starts)
  no_array := arrayBound?_eq_none ends apart

theorem quiet_between {first last : Text} (middle : Text) (opens : ¬ first <+: opening)
    (apart : ¬ last <:+ (":0];" : Text) ∧ ¬ (":0];" : Text) <:+ last) :
    Quiet (first ++ middle ++ last) :=
  quiet_of_ends ⟨middle ++ last, (List.append_assoc ..).symm⟩ (List.suffix_append ..) opens apart

theorem quiet_memberInstanceLine (f : ConcreteField) : Quiet (memberInstanceLine f) := by
  refine @quiet_of_ends _ "        this." ", this);" ?_ (List.suffix_append ..) (by decide +kernel)
    (by decide +kernel)
  unfold memberInstanceLine
  simp only [List.append_assoc]
  exact List.prefix_append ..

theorem quiet_classLines (r : ConcreteRegister) : ∀ line ∈ classLines r, Quiet line := by
  unfold classLines
  simp only [List.flatten_cons, List.flatten_nil, List.append_nil, List.forall_mem_append,
    List.forall_mem_cons, List.forall_mem_map]
  have named : Quiet ("    class " ++ r.name ++ "_CLASS extends register_base;") :=
    quiet_between r.name (by decide +kernel) (by decide +kernel)
  have ended : Quiet ("    endclass: " ++ r.name ++ "_CLASS") :=
    quiet_between r.name (by decide +kernel) (by decide +kernel)
  refine ⟨⟨named, nofun⟩, fun f _ => ?_, ?_, fun p _ => ?_, ?_, ?_, ?_⟩
  · exact quiet_between f.name (by decide +kernel) (by decide +kernel)
  · decide +kernel
  · exact quiet_between p (by decide +kernel) (by decide +kernel)
  · decide +kernel
  · exact fun f _ => quiet_memberInstanceLine f
  · exact ⟨by decide +kernel, by decide +kernel, by decide +kernel, ended, by decide +kernel, nofun⟩

theorem quiet_groupClassLines (g : Group) : ∀ line ∈ groupClassLines g, Quiet line := by
  intro line held
  rcases List.mem_cons.mp held with rfl | held
  · exact quiet_between g.title (by decide +kernel) (by decide +kernel)
  · obtain ⟨r, -, held⟩ := List.mem_flatMap.mp held
    exact quiet_classLines r line held

/-! ### Declarations -/

theorem declarationLine_ends {r : ConcreteRegister} (h : r.range = none) :
    ("_R;" : Text) <:+ declarationLine r := by
  unfold declarationLine
  rw [h]
  refine ⟨"    " ++ (r.name ++ ("_CLASS " ++ r.name)), ?_⟩
  simp only [List.append_assoc]
  rfl

theorem declarationLine_ne_opening (r : ConcreteRegister) : declarationLine r ≠ opening := by
  intro same
  cases given : r.range with
  | none => exact absurd (same ▸ declarationLine_ends given) (by decide +kernel)
  | some range =>
    have ends : (":0];" : Text) <:+ declarationLine r := by
      unfold declarationLine
      rw [given]
      exact List.suffix_append ..
    exact absurd (same ▸ ends) (by decide +kernel)

/-- The array of a repeated register has an element for each index. -/
theorem arrayBound?_declarationLine (r : ConcreteRegister) :
    arrayBound? (declarationLine r) = r.range.map fun range => range.length - 1 := by
  cases given : r.range with
  | none => exact arrayBound?_eq_none (declarationLine_ends given) (by decide +kernel)
  | some range =>
    have digits : '[' ∉ decimal (range.length - 1) := not_mem_decimal (by decide +kernel) _
    have inner : declarationLine r = "    " ++ (r.name ++ ("_CLASS " ++ (r.name ++ ("_R " ++
        '[' :: (decimal (range.length - 1) ++ ":0];"))))) := by
      unfold declarationLine
      simp only [given, List.append_assoc]
      rfl
    have member : (r.name ++ ("_CLASS " ++ (r.name ++ ("_R " ++
        '[' :: (decimal (range.length - 1) ++ ":0];")))) : Text) =
        (r.name ++ ("_CLASS " ++ (r.name ++ "_R ")) ++ '[' :: decimal (range.length - 1)) ++
          ":0];" := by
      simp only [List.append_assoc, List.cons_append]
    unfold arrayBound?
    rw [inner, stripStart?_append]
    simp only [Option.bind_eq_bind, Option.bind_some]
    rw [member, stripEnd?_eq_some_iff.mpr rfl]
    simp only [Option.bind_some]
    rw [cutLast?_append digits]
    exact readDecimal?_decimal _

/-! ### The package -/

/-- The lines up to the members of the registers. -/
def leadingLines (key : Text) (m : RegisterMap) (stamp : Stamp) : List Text :=
  List.flatten [termsOfUse, banner stamp,
    ["package " ++ packageName key ++ ";", "  import logger_pkg::*;", "  import adi_api_pkg::*;", [],
      "  class " ++ className key ++ " extends adi_regmap;", []],
    m.groups.flatMap groupClassLines]

/-- The lines between the members and the constructor's first statement. -/
def headerLines (m : RegisterMap) : List Text :=
  List.flatten [[[], "    function new(", "      input string name,", "      input int address,"],
    m.parameters.toList.map fun p => "      input int " ++ p ++ ",",
    ["      input adi_api parent = null);", []]]

def closingLines (key : Text) : List Text :=
  ["      this.info($sformatf(\"Initialized\"), ADI_VERBOSITY_HIGH);", "    endfunction: new", [],
    "  endclass: " ++ className key, [], "endpackage: " ++ packageName key]

theorem packageLines_eq (key : Text) (m : RegisterMap) (stamp : Stamp) :
    packageLines key m stamp =
      (leadingLines key m stamp ++ m.concreteRegisters.map declarationLine ++ headerLines m) ++
        opening :: [] :: (m.concreteRegisters.flatMap instanceLines ++ [] :: closingLines key) := by
  unfold packageLines packageBody leadingLines headerLines closingLines
  simp only [List.flatten_cons, List.flatten_nil, List.append_nil, List.append_assoc,
    List.cons_append, List.nil_append]
  rfl

theorem quiet_leadingLines (key : Text) (m : RegisterMap) (stamp : Stamp) :
    ∀ line ∈ leadingLines key m stamp, Quiet line := by
  have stamped : Quiet ("/* " ++ stamp.time ++ " v" ++ stamp.version ++ " */") := by
    refine @quiet_of_ends _ "/* " " */" ?_ (List.suffix_append ..) (by decide +kernel) (by decide +kernel)
    simp only [List.append_assoc]
    exact List.prefix_append ..
  have named : Quiet ("package " ++ packageName key ++ ";") := by
    refine @quiet_of_ends _ "package " "_pkg;" ?_ ?_ (by decide +kernel) (by decide +kernel)
    · exact ⟨packageName key ++ ";", (List.append_assoc ..).symm⟩
    · refine ⟨"package " ++ ("adi_regmap_" ++ key), ?_⟩
      unfold packageName
      simp only [List.append_assoc]
      rfl
  have declared : Quiet ("  class " ++ className key ++ " extends adi_regmap;") :=
    quiet_between _ (by decide +kernel) (by decide +kernel)
  unfold leadingLines banner
  simp only [List.flatten_cons, List.flatten_nil, List.append_nil, List.forall_mem_append,
    List.forall_mem_cons]
  refine ⟨quiet_termsOfUse, ⟨by decide +kernel, stamped, by decide +kernel, nofun⟩,
    ⟨named, by decide +kernel, by decide +kernel, by decide +kernel, declared, by decide +kernel, nofun⟩, ?_⟩
  intro line held
  obtain ⟨g, -, held⟩ := List.mem_flatMap.mp held
  exact quiet_groupClassLines g line held

theorem quiet_headerLines (m : RegisterMap) : ∀ line ∈ headerLines m, Quiet line := by
  unfold headerLines
  simp only [List.flatten_cons, List.flatten_nil, List.append_nil, List.forall_mem_append,
    List.forall_mem_cons, List.forall_mem_map]
  refine ⟨⟨by decide +kernel, by decide +kernel, by decide +kernel, by decide +kernel, nofun⟩, fun p _ => ?_,
    by decide +kernel, by decide +kernel, nofun⟩
  exact quiet_between p (by decide +kernel) (by decide +kernel)

theorem instanceLines_ne_nil (r : ConcreteRegister) : ∀ line ∈ instanceLines r, line ≠ [] := by
  unfold instanceLines
  cases r.range with
  | none => simp
  | some range => simp

/-! ### Reading the package -/

/-- A list is cut at the first element of a kind. -/
theorem cut_at_first {α : Type} [BEq α] [LawfulBEq α] {a : α} {l : List α}
    (h : ∀ x ∈ l, x ≠ a) (r : List α) :
    (l ++ a :: r).takeWhile (· != a) = l ∧ (l ++ a :: r).dropWhile (· != a) = a :: r := by
  have run : ∀ x ∈ l, (x != a) = true := fun x hx => bne_iff_ne.mpr (h x hx)
  rw [List.takeWhile_append_of_pos run, List.dropWhile_append_of_pos run]
  simp

theorem bounds_declared (key : Text) (m : RegisterMap) (stamp : Stamp) :
    (leadingLines key m stamp ++ m.concreteRegisters.map declarationLine ++
      headerLines m).filterMap arrayBound? =
      m.concreteRegisters.filterMap fun r => r.range.map fun range => range.length - 1 := by
  have leading : (leadingLines key m stamp).filterMap arrayBound? = [] :=
    List.filterMap_eq_nil_iff.mpr fun line held =>
      (quiet_leadingLines key m stamp line held).no_array
  have header : (headerLines m).filterMap arrayBound? = [] :=
    List.filterMap_eq_nil_iff.mpr fun line held => (quiet_headerLines m line held).no_array
  rw [List.filterMap_append, List.filterMap_append, leading, header, List.filterMap_map,
    List.nil_append, List.append_nil]
  exact List.filterMap_congr fun r _ => arrayBound?_declarationLine r

theorem read?_eq (key : Text) (m : RegisterMap) (stamp : Stamp)
    (h : ∀ r ∈ m.concreteRegisters, Placeable r) :
    read? (packageLines key m stamp) = some
      ⟨m.concreteRegisters.filterMap fun r => r.range.map fun range => range.length - 1,
        m.concreteRegisters.map statementOf⟩ := by
  have declared : ∀ line ∈ leadingLines key m stamp ++ m.concreteRegisters.map declarationLine ++
      headerLines m, line ≠ opening := by
    simp only [List.forall_mem_append, List.forall_mem_map]
    exact ⟨⟨fun line held => (quiet_leadingLines key m stamp line held).ne_opening,
      fun r _ => declarationLine_ne_opening r⟩,
      fun line held => (quiet_headerLines m line held).ne_opening⟩
  have made : ∀ line ∈ m.concreteRegisters.flatMap instanceLines, line ≠ [] := by
    intro line held
    obtain ⟨r, -, held⟩ := List.mem_flatMap.mp held
    exact instanceLines_ne_nil r line held
  obtain ⟨before, after⟩ := cut_at_first declared
    ([] :: (m.concreteRegisters.flatMap instanceLines ++ [] :: closingLines key))
  obtain ⟨body, -⟩ := cut_at_first made (closingLines key)
  unfold read?
  rw [packageLines_eq, before, after]
  simp only [List.drop_succ_cons, List.drop_zero, body, bounds_declared, statements?_instances h]
  rfl

/-- The package makes the registers of the map, in order and at their byte addresses. Each array
has as many elements as the loop over it makes, which is the length of the range. -/
theorem read?_packageLines (key : Text) (m : RegisterMap) (stamp : Stamp)
    (h : ∀ r ∈ m.concreteRegisters, Placeable r) :
    ∃ e, read? (packageLines key m stamp) = some e ∧
      e.statements.flatMap Statement.instances = m.concreteRegisters.flatMap placements ∧
      e.bounds = (m.concreteRegisters.filterMap ConcreteRegister.range).map
        (fun range => range.past - range.first - 1) ∧
      e.bounds.map (· + 1) = e.statements.filterMap Statement.count? := by
  refine ⟨_, read?_eq key m stamp h, ?_, ?_, ?_⟩
  · rw [List.flatMap_map]
    exact List.flatMap_congr fun r hr => instances_statementOf (h r hr)
  · rw [List.map_filterMap]
    rfl
  · rw [List.map_filterMap, List.filterMap_map]
    refine List.filterMap_congr fun r hr => ?_
    unfold statementOf
    simp only [Function.comp_apply]
    cases given : r.range with
    | none => rfl
    | some range =>
      have ordered := (h r hr).ordered range given
      have some_index : range.length - 1 + 1 = range.length := by
        unfold IndexRange.length
        omega
      exact congrArg some some_index

/-- A control register, and the status of two lanes that are counted from two. -/
def laneMap : RegisterMap where
  groups := [⟨"Lanes", "lanes", [], [
    .concrete ⟨"CTRL", 1, 0, [], [], none, .ofList ["DATA_WIDTH"]⟩,
    .concrete ⟨"LANEn_STATUS", 32, 8, [], [], some ⟨2, 4⟩, .empty⟩], []⟩]
  modified := none
  owners := .empty

def laneInstances : List Instance :=
  [⟨"CTRL", 4⟩, ⟨"LANE2_STATUS", 192⟩, ⟨"LANE3_STATUS", 224⟩]

theorem placeable_laneMap : ∀ r ∈ laneMap.concreteRegisters, Placeable r := by
  have names : laneMap.concreteRegisters.all (fun r =>
      r.name.all fun c => c != '%' && c != '"' && c != '\n') = true := by decide +kernel
  intro r hr
  have name : ∀ c ∈ r.name, c ≠ '%' ∧ c ≠ '"' ∧ c ≠ '\n' := by
    simpa [and_assoc] using List.all_eq_true.mp names r hr
  have either : r ∈ [_, _] := hr
  rcases List.mem_pair.mp either with rfl | rfl
  · exact ⟨name, nofun, nofun, fun _ => by decide⟩
  · refine ⟨name, ?_, ?_, nofun⟩
    · rintro _ ⟨⟩
      decide
    · rintro _ ⟨⟩
      decide

def laneStamp : Stamp := ⟨"0.1.0", "Mar 04 10:12:45 2025", 2025⟩

theorem read?_packageLines_laneMap :
    ∃ e, read? (packageLines "lanes" laneMap laneStamp) = some e ∧
      e.statements.flatMap Statement.instances = laneInstances ∧ e.bounds = [1] := by
  obtain ⟨e, read, made, bounds, -⟩ :=
    read?_packageLines "lanes" laneMap laneStamp placeable_laneMap
  have placed : laneMap.concreteRegisters.flatMap placements = laneInstances := by decide +kernel
  exact ⟨e, read, made.trans placed, bounds⟩

end Gateware.RegisterMap
