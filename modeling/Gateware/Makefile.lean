import Gateware.Library.Basic
import Gateware.Project.Basic
import Gateware.Stamp
import Gateware.Text.Case
import Gateware.Text.Numeral

/-!
# Makefiles

The makefile of a library or a project lists what it needs in variables, one item a line, and
includes the rules at the end.
-/

namespace Gateware.Makefile

open Text

def ruler : Text :=
  "####################################################################################"

def banner (stamp : Stamp) : List Text := [
  ruler,
  "## Copyright (c) 2018-" ++ decimalInt stamp.year ++ " Analog Devices, Inc.",
  "### SPDX short identifier: BSD-1-Clause",
  "## Auto-generated v" ++ stamp.version ++ ", do not modify!",
  ruler,
  []]

/-- The line that adds an item to a variable. -/
def itemLine (var item : Text) : Text := var ++ " += " ++ item

def itemLines (var : Text) (items : List Text) : List Text := items.map (itemLine var)

/-- The items, then an empty line if there are any. -/
def paragraph (var : Text) (items : List Text) : List Text :=
  if items.isEmpty then [] else itemLines var items ++ [[]]

/-- The line that includes a file as seen from the directory `key`. -/
def includeLine (file : Text) (key : Text) : Text :=
  "include " ++ (Path.relativeTo ⟨file⟩ ⟨key⟩).toSlash

def manifestLines (v : Vendor) (m : Manifest) : List Text :=
  let lead := upper v.name
  List.flatten [
    paragraph (lead ++ "_DEPS") m.dependencies.toList,
    paragraph (lead ++ "_DEPS") m.interfaceFiles.toList,
    paragraph (lead ++ "_LIB_DEPS") m.libraryDependencies.toList,
    paragraph (lead ++ "_INTERFACE_DEPS") m.interfaceDependencies.toList]

def ofLibrary (key : Text) (l : Library) (stamp : Stamp) : List Text :=
  List.flatten [
    banner stamp,
    ["LIBRARY_NAME := " ++ l.name, []],
    itemLines "GENERIC_DEPS" l.generic.toList,
    [[]],
    l.vendors.entries.flatMap fun e => manifestLines e.1 e.2,
    [includeLine "scripts/library.mk" key]]

def ofProject (key : Text) (p : Project) (stamp : Stamp) : List Text :=
  List.flatten [
    banner stamp,
    ["PROJECT_NAME := " ++ p.name, []],
    itemLines "M_DEPS" p.files,
    [[]],
    itemLines "LIB_DEPS" p.libraries.toList,
    [[]],
    [includeLine ("scripts/project-" ++ p.vendor.name ++ ".mk") key]]

end Gateware.Makefile
