import Gateware.RegisterMap.Banner
import Gateware.RegisterMap.Expansion
import Gateware.Text.Case

/-!
# SystemVerilog packages

A register map becomes a package that holds a class for each concrete register, a member of that
class, and a constructor that places every register at its byte address. A map with parameters has
a header of macros beside it. Registers and fields stand in the order of their declaration.
-/

namespace Gateware.RegisterMap

open Text

def packageName (key : Text) : Text := "adi_regmap_" ++ key ++ "_pkg"

def className (key : Text) : Text := "adi_regmap_" ++ key

/-! ### Values -/

def hexText (n : Nat) : Text := "'h" ++ hexadecimal n

/-- The reset value of a field; without one it is undefined. -/
def resetText : Option FieldDefault → Text
  | some (.hex value) => hexText value
  | some (.expr _ long) => long
  | none => "'hXXXXXXXX"

def bitsText : Bits → Text
  | .span high low => replace "''" [] (high.text ++ ", " ++ low.text)
  | .indexed => "n, n"

/-- The parameters as arguments after another one. -/
def argumentsText (parameters : List Text) : Text := parameters.flatMap fun p => ", " ++ p

/-! ### Register classes -/

/-- The fields that have a member in the class of their register. -/
def classFields (r : ConcreteRegister) : List ConcreteField :=
  (r.fields.filterMap Field.concrete?).filter fun f => f.name != ("RESERVED" : Text)

def memberLine (f : ConcreteField) : Text := "      field_base " ++ f.name ++ "_F;"

def memberInstanceLine (f : ConcreteField) : Text :=
  "        this." ++ f.name ++ "_F = new(\"" ++ f.name ++ "\", " ++ bitsText f.bits ++ ", " ++
    f.access.kind.tag ++ ", " ++ resetText f.reset ++ ", this);"

def classLines (r : ConcreteRegister) : List Text :=
  List.flatten [
    ["    class " ++ r.name ++ "_CLASS extends register_base;"],
    (classFields r).map memberLine,
    [[], "      function new(", "        input string name,", "        input int address,"],
    r.parameters.toList.map fun p => "        input int " ++ p ++ ",",
    ["        input adi_regmap parent = null);", [],
      "        super.new(name, address, parent);", []],
    (classFields r).map memberInstanceLine,
    [[], "        this.initialization_done = 1;", "      endfunction: new",
      "    endclass: " ++ r.name ++ "_CLASS", []]]

def groupClassLines (g : Group) : List Text :=
  ("    /* " ++ g.title ++ " */" : Text) :: g.concreteRegisters.flatMap classLines

/-! ### Members and instances -/

/-- The member for a register; a repeated one is an array. -/
def declarationLine (r : ConcreteRegister) : Text :=
  let member : Text := "    " ++ r.name ++ "_CLASS " ++ r.name ++ "_R"
  match r.range with
  | some range => member ++ " [" ++ decimal (range.length - 1) ++ ":0];"
  | none => member ++ ";"

/-- The index of an instance, as the loop variable gives it. -/
def indexText (first : Nat) : Text := if first = 0 then "i" else "i+" ++ decimal first

/-- The byte address of a register; like all arithmetic on addresses it wraps around. -/
def byteAddress (address : Nat) : Nat := address * 4 % wordBound

theorem byteAddress_of_lt {address : Nat} (h : address * 4 < wordBound) :
    byteAddress address = address * 4 :=
  Nat.mod_eq_of_lt h

/-- The address of the first instance of a repeated register. -/
def firstAddress (r : ConcreteRegister) (range : IndexRange) : Nat :=
  (r.address + r.increment * range.first) % wordBound

theorem firstAddress_of_lt {r : ConcreteRegister} {range : IndexRange}
    (h : r.address + r.increment * range.first < wordBound) :
    firstAddress r range = r.address + r.increment * range.first :=
  Nat.mod_eq_of_lt h

/-- The place of a register, or of each instance of a repeated one, in bytes. -/
def instanceLines (r : ConcreteRegister) : List Text :=
  let arguments := argumentsText r.parameters.toList
  match r.range with
  | some range =>
    ["      for (int i=0; i<" ++ decimal range.length ++ "; i++) begin",
      "        this." ++ r.name ++ "_R[i] = new($sformatf(\"" ++ substituteIndex r.name "%0d" ++
        "\", " ++ indexText range.first ++ "), " ++
        hexText (byteAddress (firstAddress r range)) ++ " + " ++ hexText r.increment ++
        " * i * 4" ++ arguments ++ ", this);",
      "      end"]
  | none =>
    ["      this." ++ r.name ++ "_R = new(\"" ++ r.name ++ "\", " ++
      hexText (byteAddress r.address) ++ arguments ++ ", this);"]

/-! ### The package -/

/-- The package without its terms of use. -/
def packageBody (key : Text) (m : RegisterMap) (stamp : Stamp) : List Text :=
  List.flatten [
    banner stamp,
    ["package " ++ packageName key ++ ";", "  import logger_pkg::*;",
      "  import adi_api_pkg::*;", [],
      "  class " ++ className key ++ " extends adi_regmap;", []],
    m.groups.flatMap groupClassLines,
    m.concreteRegisters.map declarationLine,
    [[], "    function new(", "      input string name,", "      input int address,"],
    m.parameters.toList.map fun p => "      input int " ++ p ++ ",",
    ["      input adi_api parent = null);", [], "      super.new(name, address, parent);", []],
    m.concreteRegisters.flatMap instanceLines,
    [[], "      this.info($sformatf(\"Initialized\"), ADI_VERBOSITY_HIGH);",
      "    endfunction: new", [],
      "  endclass: " ++ className key, [], "endpackage: " ++ packageName key]]

def packageLines (key : Text) (m : RegisterMap) (stamp : Stamp) : List Text :=
  termsOfUse ++ packageBody key m stamp

/-! ### The macros -/

/-- The macros over the parameters of a map, when it has any. -/
def macroLines? (key : Text) (m : RegisterMap) (stamp : Stamp) : Option (List Text) :=
  let parameters := m.parameters.toList
  if parameters.isEmpty then none
  else
    let package := upper (packageName key)
    let separator : Text := ", \\\n"
    let imports := joinWith separator (parameters.map fun p => "  n``.inst." ++ p)
    let names := joinWith separator (parameters.map fun p => "  " ++ p)
    some (List.flatten [termsOfUse, banner stamp, [
        "`timescale 1ns/1ps", [],
        "`ifndef _" ++ package ++ "_DEFINITIONS_SVH_",
        "`define _" ++ package ++ "_DEFINITIONS_SVH_", [],
        "// Help build VIP Interface parameters name",
        "`define " ++ package ++ "_PARAM_IMPORT(n)" ++ imports, [],
        "`define " ++ package ++ "_PARAM_DECL int" ++ names, [],
        "`define " ++ package ++ "_PARAM_ORDER" ++ names, [],
        "`endif"]])

/-! ### Files -/

/-- A generated file: its name and its lines. -/
structure GeneratedFile where
  name : Text
  lines : List Text
deriving DecidableEq

def GeneratedFile.text (f : GeneratedFile) : Text := unlines f.lines

def outputs (key : Text) (m : RegisterMap) (stamp : Stamp) : List GeneratedFile :=
  ⟨"adi_regmap_" ++ key ++ "_pkg.sv", packageLines key m stamp⟩ ::
    ((macroLines? key m stamp).map fun lines =>
      GeneratedFile.mk ("adi_regmap_" ++ key ++ "_definitions.svh") lines).toList

end Gateware.RegisterMap
