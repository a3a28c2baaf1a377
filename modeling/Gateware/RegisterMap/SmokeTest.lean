import Gateware.RegisterMap.Package

/-!
# Smoke test

A program that constructs every generated package with its parameters at zero, and the script that
compiles it.
-/

namespace Gateware.RegisterMap

open Text

def constructionLine (key : Text) (m : RegisterMap) : Text :=
  "    adi_regmap_" ++ key ++ "_rm = new(\"" ++ key ++ "\", 0" ++
    argumentsText (m.parameters.toList.map fun _ => ['0']) ++ ");"

def testProgram (t : MapTable) : List Text :=
  List.flatten [
    ["`include \"utils.svh\"", [], "import logger_pkg::*;"],
    t.keys.map fun key => "import adi_regmap_" ++ key ++ "_pkg::*;",
    [[], "module test_program;", []],
    t.keys.map fun key => "  adi_regmap_" ++ key ++ " adi_regmap_" ++ key ++ "_rm;",
    [[], "  initial begin", [], "    setLoggerVerbosity(ADI_VERBOSITY_NONE);", []],
    t.entries.map fun (key, m) => constructionLine key m,
    [[], "    $finish();", [], "  end", [], "endmodule"]]

/-- The sources that every package needs, with the places they are copied from. -/
def testSources : List (Text × Text) := [
  ("utils.svh", "../utilities/utils.svh"),
  ("logger_pkg.sv", "../utilities/logger_pkg.sv"),
  ("adi_common_pkg.sv", "../utilities/adi_common_pkg.sv"),
  ("adi_environment_pkg.sv", "../utilities/adi_environment_pkg.sv"),
  ("adi_vip_pkg.sv", "../utilities/adi_vip_pkg.sv"),
  ("axi_definitions.svh", "../vip/amd/axi/axi_definitions.svh"),
  ("m_axi_sequencer.sv", "../vip/amd/axi/m_axi_sequencer.sv"),
  ("adi_api_pkg.sv", "../utilities/adi_api_pkg.sv")]

/-- The assignment that adds a source; the first one starts the list. -/
def sourceLine (index : Nat) (name : Text) : Text :=
  "SOURCE" ++ (if index = 0 then "=" else "+=" : Text) ++ "\"" ++ name ++ " \""

def testScript (t : MapTable) : List Text :=
  List.flatten [
    ["#!/bin/bash", []],
    testSources.zipIdx.map fun (source, i) => sourceLine i source.1,
    t.keys.map fun key => "SOURCE+=\"adi_regmap_" ++ key ++ "_pkg.sv \"",
    ["SOURCE+=\"test_program.sv\"", []],
    testSources.map fun source => "cp " ++ source.2 ++ " .",
    ["source ../../scripts/run_unit_tb.sh"]]

end Gateware.RegisterMap
