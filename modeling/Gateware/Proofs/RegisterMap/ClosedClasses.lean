import Gateware.Proofs.RegisterMap.FreeParameters
import Gateware.Proofs.RegisterMap.Invariant

/-!
# Register classes are closed

In the package of an expanded map the constructor of each register class declares the names that
its fields are constructed with (`class_declares`), except for names that printing puts together and
those beside the mark of an undefined reset value (`not_closed_offsetMap`).
-/

namespace Gateware.RegisterMap

open Text

/-! ### Constructors -/

/-- The line that declares a parameter of a constructor. -/
def inputLine (p : Text) : Text := "        input int " ++ p ++ ","

/-- The constructor of a register class, as far as its parameters go. -/
def constructorLines (r : ConcreteRegister) : List Text :=
  List.flatten [
    ["      function new(", "        input string name,", "        input int address,"],
    r.parameters.toList.map inputLine,
    ["        input adi_regmap parent = null);"]]

def Declares (r : ConcreteRegister) (p : Text) : Prop := inputLine p ∈ constructorLines r

instance (r : ConcreteRegister) (p : Text) : Decidable (Declares r p) :=
  inferInstanceAs (Decidable (_ ∈ _))

theorem declares_of_mem {r : ConcreteRegister} {p : Text} (h : p ∈ r.parameters) : Declares r p := by
  have line : inputLine p ∈ r.parameters.toList.map inputLine :=
    List.mem_map_of_mem (KeySet.mem_toList.mpr h)
  exact List.mem_flatten.mpr ⟨_, List.mem_cons_of_mem _ List.mem_cons_self, line⟩

theorem constructorLines_within (r : ConcreteRegister) : constructorLines r <:+: classLines r := by
  refine ⟨List.flatten [["    class " ++ r.name ++ "_CLASS extends register_base;"],
      (classFields r).map memberLine, [[]]],
    List.flatten [[[], "        super.new(name, address, parent);", []],
      (classFields r).map memberInstanceLine,
      [[], "        this.initialization_done = 1;", "      endfunction: new",
        "    endclass: " ++ r.name ++ "_CLASS", []]], ?_⟩
  simp only [constructorLines, classLines, List.flatten_cons, List.flatten_nil, List.append_assoc,
    List.cons_append, List.nil_append]
  rfl

theorem memberInstanceLine_mem {r : ConcreteRegister} {f : ConcreteField} (h : f ∈ classFields r) :
    memberInstanceLine f ∈ classLines r := by
  have line : memberInstanceLine f ∈ (classFields r).map memberInstanceLine :=
    List.mem_map_of_mem h
  unfold classLines
  refine List.mem_flatten.mpr ⟨_, ?_, line⟩
  iterate 5 apply List.mem_cons_of_mem
  exact List.mem_cons_self

theorem classLines_within {m : RegisterMap} {r : ConcreteRegister} (h : r ∈ m.concreteRegisters)
    (key : Text) (stamp : Stamp) : classLines r <:+: packageLines key m stamp := by
  obtain ⟨g, hg, inside⟩ := mem_concreteRegisters.mp h
  have own : r ∈ g.concreteRegisters := List.mem_filterMap.mpr ⟨.concrete r, inside, rfl⟩
  have inGroup : classLines r <:+: groupClassLines g := by
    have part := List.infix_of_mem_flatten (List.mem_map_of_mem (f := classLines) own)
    rw [← List.flatMap_def] at part
    exact part.trans (List.suffix_cons _ _).isInfix
  have inClasses : groupClassLines g <:+: m.groups.flatMap groupClassLines := by
    rw [List.flatMap_def]
    exact List.infix_of_mem_flatten (List.mem_map_of_mem hg)
  have inBody : m.groups.flatMap groupClassLines <:+: packageBody key m stamp := by
    unfold packageBody
    refine List.infix_of_mem_flatten ?_
    iterate 2 apply List.mem_cons_of_mem
    exact List.mem_cons_self
  exact ((inGroup.trans inClasses).trans inBody).trans (List.suffix_append _ _).isInfix

/-! ### The names in the fields -/

theorem mem_parameters_of_field {r : ConcreteRegister} (whole : r.WellFormed) {f : ConcreteField}
    (hf : f ∈ classFields r) {p : Text}
    (hp : p ∈ f.bits.parameters ∨ p ∈ (f.reset.map FieldDefault.parameters).getD []) :
    p ∈ r.parameters := by
  obtain ⟨f', inside, declared⟩ := List.mem_filterMap.mp (List.mem_filter.mp hf).1
  cases f' with
  | imported name => cases declared
  | concrete f' =>
    cases declared
    refine whole.parameters f inside p ?_
    unfold ConcreteField.parameters
    rw [KeySet.mem_ofList, List.mem_append]
    exact hp

/-- After any events, in the package of a map that is expanded: the names in the printed bounds of a
field are declared by the constructor of its class when none of them is put together in printing,
and so are those in its reset value when that is not marked as undefined. -/
theorem class_declares {events : List Event} {key : Text} (stamp : Stamp) {m m' : RegisterMap}
    {r : ConcreteRegister} {f : ConcreteField} (held : (run .empty events).get? key = some m)
    (expanded : m.expand = .ok m') (hr : r ∈ m'.concreteRegisters) (hf : f ∈ classFields r) :
    classLines r <:+: packageLines key m' stamp ∧ constructorLines r <:+: classLines r ∧
      memberInstanceLine f ∈ classLines r ∧
      ∃ high low, f.bits = .span high low ∧
        (¬ high.Glues → ¬ low.Glues → ∀ p ∈ freeParameters (bitsText f.bits), Declares r p) ∧
        ((∀ d, f.reset = some d → ¬ d.IsUndefined) →
          ∀ p ∈ freeParameters (resetText f.reset), Declares r p) := by
  have whole := run_wellFormed (t := .empty) (fun m hm => nomatch hm) events m
    (Table.mem_values_of_get? held)
  have whole' := (wellFormed_of_mem (expand_wellFormed whole expanded) hr).concrete r rfl
  refine ⟨classLines_within hr key stamp, constructorLines_within r, memberInstanceLine_mem hf, ?_⟩
  obtain ⟨g, hg, inside⟩ := mem_concreteRegisters.mp hr
  obtain ⟨f', own, declared⟩ := List.mem_filterMap.mp (List.mem_filter.mp hf).1
  obtain ⟨c, high, low, rfl, -, bits⟩ :=
    expanded_of_expand whole expanded g hg (.concrete r) inside f' own
  cases declared
  refine ⟨high, low, bits, ?_, ?_⟩
  · intro hhigh hlow p hp
    rw [bits] at hp
    have collected := freeParameters_bitsText hhigh hlow p hp
    exact declares_of_mem (mem_parameters_of_field whole' hf (.inl (bits ▸ collected)))
  · intro defined p hp
    have collected := freeParameters_resetText defined p hp
    exact declares_of_mem (mem_parameters_of_field whole' hf (.inr collected))

/-- A map that imports a register whose width and reset value are parameters. -/
def widthEvents : List Event := [
  .describe "base" ["TITLE", "Base", "base", "ENDTITLE", "REG", "0x10", "DATA", "ENDREG",
    "FIELD", "[''WIDTH''-1:0] ''ID''+1", "VALUE", "RO", "ENDFIELD"],
  .describe "core" ["TITLE", "USING base", "Core", "core", "ENDTITLE", "REG", "DATA", "ENDREG"],
  .resolve]

def widthField : ConcreteField where
  name := "VALUE"
  bits := .span (.expr "''WIDTH''-1") (.num 0)
  reset := some (.expr "``ID``+1" "ID+1")
  access := ⟨.ro, false⟩
  description := []
  range := none

def widthRegister : ConcreteRegister :=
  ⟨"DATA", 16, 0, [], [.concrete widthField], none, .ofList ["ID", "WIDTH"]⟩

def widthMap : RegisterMap :=
  ⟨[⟨"Core", "core", ["base"], [.concrete widthRegister], ["RO"]⟩], none, .empty⟩

theorem class_declares_widthMap :
    (run .empty widthEvents).get? "core" = some widthMap ∧ widthMap.expand = .ok widthMap ∧
      widthRegister ∈ widthMap.concreteRegisters ∧ widthField ∈ classFields widthRegister ∧
      freeParameters (bitsText widthField.bits) = [String.toList "WIDTH"] ∧
      freeParameters (resetText widthField.reset) = [String.toList "ID"] ∧
      Declares widthRegister "WIDTH" ∧ Declares widthRegister "ID" := by
  have held : (run .empty widthEvents).get? "core" = some widthMap := by decide +kernel
  have expanded : widthMap.expand = .ok widthMap := if_pos (by decide +kernel)
  have register : widthRegister ∈ widthMap.concreteRegisters := by decide +kernel
  have field : widthField ∈ classFields widthRegister := by decide +kernel
  have bits : freeParameters (bitsText widthField.bits) = [String.toList "WIDTH"] := by
    decide +kernel
  have reset : freeParameters (resetText widthField.reset) = [String.toList "ID"] := by
    decide +kernel
  obtain ⟨-, -, -, high, low, span, bounds, value⟩ :=
    class_declares ⟨"1.0", [], 2024⟩ held expanded register field
  obtain ⟨rfl, rfl⟩ := Bits.span.inj span
  refine ⟨held, expanded, register, field, bits, reset, ?_, ?_⟩
  · refine bounds (by decide) (by decide) _ ?_
    rw [bits]
    exact List.mem_singleton.mpr rfl
  · refine value ?_ _ ?_
    · rintro d ⟨⟩
      decide
    · rw [reset]
      exact List.mem_singleton.mpr rfl

/-- A register whose reset value has a name beside the mark, and one whose bound has two names that
are printed as one. -/
def offsetEvents : List Event := [
  .describe "core" ["TITLE", "Core", "core", "ENDTITLE",
    "REG", "0x0", "ID", "ENDREG", "FIELD", "[31:0] 0xX+OFFSET", "VALUE", "RO", "ENDFIELD",
    "REG", "0x1", "DATA", "ENDREG", "FIELD", "[DATA''WIDTH'':0]", "VALUE", "RO", "ENDFIELD"],
  .resolve]

def offsetField : ConcreteField :=
  { widthField with bits := .span (.num 31) (.num 0), reset := some (.expr "0xX+OFFSET" "'hX+OFFSET") }

def gluedField : ConcreteField :=
  { widthField with bits := .span (.expr "DATA''WIDTH''") (.num 0), reset := none }

def offsetRegister : ConcreteRegister :=
  ⟨"ID", 0, 0, [], [.concrete offsetField], none, .empty⟩

def gluedRegister : ConcreteRegister :=
  ⟨"DATA", 1, 0, [], [.concrete gluedField], none, .ofList ["DATA", "WIDTH"]⟩

def offsetMap : RegisterMap :=
  ⟨[⟨"Core", "core", [], [.concrete offsetRegister, .concrete gluedRegister], ["RO"]⟩], none, .empty⟩

theorem not_closed_offsetMap :
    (run .empty offsetEvents).get? "core" = some offsetMap ∧ offsetMap.expand = .ok offsetMap ∧
      (offsetRegister ∈ offsetMap.concreteRegisters ∧ offsetField ∈ classFields offsetRegister ∧
        "OFFSET".toList ∈ freeParameters (resetText offsetField.reset) ∧
        ¬ Declares offsetRegister "OFFSET") ∧
      gluedRegister ∈ offsetMap.concreteRegisters ∧ gluedField ∈ classFields gluedRegister ∧
        "DATAWIDTH".toList ∈ freeParameters (bitsText gluedField.bits) ∧
        ¬ Declares gluedRegister "DATAWIDTH" := by
  refine ⟨by decide +kernel, if_pos (by decide +kernel), ⟨?_, ?_, ?_, ?_⟩, ?_, ?_, ?_, ?_⟩
  all_goals decide +kernel

end Gateware.RegisterMap
