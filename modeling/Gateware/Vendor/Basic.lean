import Gateware.Sorted.Key
import Gateware.Text.Basic

/-!
# Vendors

The tool chains that a library or a project can be built with, and what their build scripts call
things. The name of a manifest or of a project's entry tells the vendor.
-/

namespace Gateware

inductive Vendor where
  | xilinx | intel
deriving DecidableEq

namespace Vendor

def name : Vendor → Text
  | .xilinx => "xilinx"
  | .intel => "intel"

def all : List Vendor := [.xilinx, .intel]

theorem mem_all (v : Vendor) : v ∈ all := by cases v <;> decide

/-! ### Files -/

def manifestEnd : Vendor → Text
  | .xilinx => "_ip.tcl"
  | .intel => "_hw.tcl"

def projectEntry : Vendor → Text
  | .xilinx => "system_bd.tcl"
  | .intel => "system_qsys.tcl"

def carrierScript : Vendor → Text
  | .xilinx => "adi_project_xilinx.tcl"
  | .intel => "adi_project_intel.tcl"

def ofManifest? (fileName : Text) : Option Vendor :=
  all.find? fun v => Text.endsWith v.manifestEnd fileName

def ofProjectEntry? (fileName : Text) : Option Vendor :=
  all.find? fun v => fileName == v.projectEntry

/-! ### Calls -/

/-- The call that instantiates a library, and the position of the library among its words. -/
def instanceCall : Vendor → Text × Nat
  | .xilinx => ("ad_ip_instance", 1)
  | .intel => ("add_instance", 2)

/-- The call that names the libraries which a library needs. -/
def dependencyCall : Text := "adi_ip_add_core_dependencies"

def busCall : Text := "adi_add_bus"

/-- The calls that list the files of a library, in the order in which they are looked for. -/
def filesCalls : List Text := ["adi_ip_files", "ad_ip_files"]

/-- The call that adds files to a library that lists none. -/
def addFilesCall : Text := "add_files"

def filesetCall : Text := "add_fileset_file"

def parameterCall : Text := "ad_ip_parameter"

def projectFilesCall : Text := "adi_project_files"

/-- The script of a project beside its entry. -/
def projectScript : Text := "system_project.tcl"

def interfacesScript : Text := "interfaces_ip.tcl"

/-- What stands for the root of the repository in a script. -/
def rootToken : Text := "$ad_hdl_dir"

/-- The extensions of hardware description sources. -/
def sourceExtensions : List Text := ["v", "sv", "vh", "svh", "vhd", "vhdl"]

instance : Key Vendor where
  lt a b := a == .xilinx && b == .intel
  irrefl a := by cases a <;> rfl
  trans {a b c} := by cases a <;> cases b <;> cases c <;> decide
  connex a b := by cases a <;> cases b <;> decide

end Vendor

end Gateware
