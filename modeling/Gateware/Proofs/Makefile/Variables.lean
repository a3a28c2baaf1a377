import Gateware.Proofs.Path.Relative
import Gateware.Proofs.Sorted.Table
import Gateware.Proofs.Text.Lines
import Gateware.Proofs.Text.Literal
import Gateware.Proofs.Text.Numeral
import Gateware.Proofs.Text.Trim

/-!
# The variables of a makefile

A line that adds an item begins with the name of its variable, and a blank follows that. So no line
is taken for one of another variable, and each variable collects from a written makefile what the
library or the project lists for it (`collect_written`), whatever the items are.
-/

namespace Gateware.Makefile

open Text

/-! ### Reading a makefile -/

/-- The item that a line adds to the variable. -/
def added? (var line : Text) : Option Text := stripStart? (var ++ " += ") line

/-- The items that the lines of a makefile add to the variable, in their order. -/
def collect (var makefile : Text) : List Text := (lines makefile).filterMap (added? var)

/-- The variables of both kinds of makefiles. -/
inductive Variable where
  | genericFiles
  | vendorFiles (v : Vendor)
  | vendorLibraries (v : Vendor)
  | vendorInterfaces (v : Vendor)
  | projectFiles
  | projectLibraries
deriving DecidableEq

namespace Variable

def vendorName : Vendor → Text
  | .xilinx => "XILINX"
  | .intel => "INTEL"

def name : Variable → Text
  | genericFiles => "GENERIC_DEPS"
  | vendorFiles v => vendorName v ++ "_DEPS"
  | vendorLibraries v => vendorName v ++ "_LIB_DEPS"
  | vendorInterfaces v => vendorName v ++ "_INTERFACE_DEPS"
  | projectFiles => "M_DEPS"
  | projectLibraries => "LIB_DEPS"

def all : List Variable :=
  [genericFiles, projectFiles, projectLibraries] ++
    Vendor.all.flatMap fun v => [vendorFiles v, vendorLibraries v, vendorInterfaces v]

theorem mem_all (x : Variable) : x ∈ all := by
  cases x with
  | genericFiles | projectFiles | projectLibraries => decide
  | vendorFiles v | vendorLibraries v | vendorInterfaces v => cases v <;> decide

theorem name_inj {x y : Variable} (h : x.name = y.name) : x = y := by
  have apart : ∀ x ∈ all, ∀ y ∈ all, x.name = y.name → x = y := by decide +kernel
  exact apart x (mem_all x) y (mem_all y) h

theorem blank_not_mem_name (x : Variable) : ' ' ∉ x.name := by
  have words : ∀ x ∈ all, ' ' ∉ x.name := by decide
  exact words x (mem_all x)

end Variable

theorem upper_name (v : Vendor) : upper v.name = Variable.vendorName v := by cases v <;> decide

/-! ### What is listed -/

/-- What the library lists for a variable: a set in its order, or the dependencies before the files
of the interfaces. There is nothing for a vendor that it lacks, or for a project. -/
def listedBy (l : Library) : Variable → List Text
  | .genericFiles => l.generic.toList
  | .vendorFiles v => ((l.vendors.get? v).map fun m =>
      m.dependencies.toList ++ m.interfaceFiles.toList).getD []
  | .vendorLibraries v => ((l.vendors.get? v).map fun m => m.libraryDependencies.toList).getD []
  | .vendorInterfaces v => ((l.vendors.get? v).map fun m => m.interfaceDependencies.toList).getD []
  | .projectFiles | .projectLibraries => []

/-- What the project lists for a variable. -/
def listedIn (p : Project) : Variable → List Text
  | .projectFiles => p.files
  | .projectLibraries => p.libraries.toList
  | _ => []

/-- Everything that the makefile of the library quotes is within one line. -/
structure Quotable (l : Library) : Prop where
  name : OneLine l.name
  generic : ∀ s ∈ l.generic.toList, OneLine s
  manifests : ∀ e ∈ l.vendors.entries,
    (∀ s ∈ e.2.dependencies.toList, OneLine s) ∧ (∀ s ∈ e.2.interfaceFiles.toList, OneLine s) ∧
    (∀ s ∈ e.2.libraryDependencies.toList, OneLine s) ∧
    ∀ s ∈ e.2.interfaceDependencies.toList, OneLine s

/-! ### One line -/

/-- A line adds to the variable that its first word names. -/
theorem word_of_added? {var line item : Text} (word : ' ' ∉ var)
    (h : added? var line = some item) : line.takeWhile (· != ' ') = var := by
  have shape : line = var ++ ' ' :: ("+= " ++ item) := by
    rw [stripStart?_eq_some_iff.mp h, List.append_assoc]
    rfl
  rw [shape]
  exact takeWhile_append_stop (fun c hc => bne_iff_ne.mpr fun same => word (same ▸ hc))
    (by simp)

theorem added?_itemLine {var var' : Text} (word : ' ' ∉ var) (word' : ' ' ∉ var') (item : Text) :
    added? var (itemLine var' item) = if var' = var then some item else none := by
  have own : added? var' (itemLine var' item) = some item := stripStart?_append _ item
  split
  · rename_i same
    rw [← same, own]
  · rename_i other
    rw [Option.eq_none_iff_forall_ne_some]
    intro item' h
    exact other ((word_of_added? word' own).symm.trans (word_of_added? word h))

theorem added?_of_word (word : Text) {line : Text} (first : line.takeWhile (· != ' ') = word)
    (other : ∀ x ∈ Variable.all, word ≠ x.name) (x : Variable) : added? x.name line = none := by
  rw [Option.eq_none_iff_forall_ne_some]
  intro item h
  exact other x x.mem_all (first.symm.trans (word_of_added? x.blank_not_mem_name h))

/-! ### Stretches of lines -/

variable {x y : Variable} {items : List Text}

theorem filterMap_itemLines (x y : Variable) (items : List Text) :
    (itemLines y.name items).filterMap (added? x.name) = if x = y then items else [] := by
  have line (item : Text) :
      added? x.name (itemLine y.name item) = if x = y then some item else none := by
    rw [added?_itemLine x.blank_not_mem_name y.blank_not_mem_name]
    exact if_congr ⟨fun h => (Variable.name_inj h).symm, fun h => congrArg _ h.symm⟩ rfl rfl
  unfold itemLines
  rw [List.filterMap_map, Function.comp_def]
  simp only [line]
  split
  · exact List.filterMap_some
  · simp

theorem filterMap_empty (x : Variable) : ([[]] : List Text).filterMap (added? x.name) = [] := by
  have empty : added? x.name [] = none := added?_of_word [] rfl (by decide) x
  rw [List.filterMap_cons_none empty, List.filterMap_nil]

/-- A heading, with the empty line behind it, adds nothing when its first word is no variable. -/
theorem filterMap_heading (word : Text) {line : Text} (first : line.takeWhile (· != ' ') = word)
    (other : ∀ x ∈ Variable.all, word ≠ x.name) (x : Variable) :
    [line, []].filterMap (added? x.name) = [] := by
  rw [List.filterMap_cons_none (added?_of_word word first other x), filterMap_empty]

/-- The empty line behind a paragraph adds nothing. -/
theorem filterMap_paragraph (x y : Variable) (items : List Text) :
    (paragraph y.name items).filterMap (added? x.name) = if x = y then items else [] := by
  unfold paragraph
  split
  · rename_i none
    rw [List.isEmpty_iff.mp none]
    exact (ite_self []).symm
  · rw [List.filterMap_append, filterMap_itemLines, filterMap_empty, List.append_nil]

theorem filterMap_banner (x : Variable) (stamp : Stamp) :
    (banner stamp).filterMap (added? x.name) = [] := by
  rw [List.filterMap_eq_nil_iff]
  unfold banner
  simp only [List.forall_mem_cons]
  exact ⟨added?_of_word ruler (by decide) (by decide) x, added?_of_word "##" rfl (by decide) x,
    added?_of_word "###" (by decide) (by decide) x, added?_of_word "##" rfl (by decide) x,
    added?_of_word ruler (by decide) (by decide) x, added?_of_word [] rfl (by decide) x, nofun⟩

theorem filterMap_includeLine (x : Variable) (file key : Text) :
    [includeLine file key].filterMap (added? x.name) = [] := by
  have first (route : Text) : ("include " ++ route).takeWhile (· != ' ') = "include" := rfl
  unfold includeLine
  generalize (Path.relativeTo ⟨file⟩ ⟨key⟩).toSlash = route
  rw [List.filterMap_cons_none (added?_of_word _ (first route) (by decide) x), List.filterMap_nil]

theorem manifestLines_eq (v : Vendor) (m : Manifest) :
    manifestLines v m =
      (paragraph (Variable.vendorFiles v).name m.dependencies.toList ++
        paragraph (Variable.vendorFiles v).name m.interfaceFiles.toList) ++
      (paragraph (Variable.vendorLibraries v).name m.libraryDependencies.toList ++
        paragraph (Variable.vendorInterfaces v).name m.interfaceDependencies.toList) := by
  unfold manifestLines
  rw [upper_name]
  simp only [List.flatten_cons, List.flatten_nil, List.append_nil, List.append_assoc]
  rfl

/-- What the lines of one vendor add. -/
theorem filterMap_manifestLines (x : Variable) (v : Vendor) (m : Manifest) :
    (manifestLines v m).filterMap (added? x.name) =
      (if x = .vendorFiles v then m.dependencies.toList ++ m.interfaceFiles.toList else []) ++
      ((if x = .vendorLibraries v then m.libraryDependencies.toList else []) ++
      if x = .vendorInterfaces v then m.interfaceDependencies.toList else []) := by
  rw [manifestLines_eq]
  simp only [List.filterMap_append, filterMap_paragraph]
  congr 1
  split <;> rfl

/-! ### Whole lines -/

theorem oneLine_itemLines {var : Text} (named : OneLine var) (h : ∀ s ∈ items, OneLine s) :
    ∀ line ∈ itemLines var items, OneLine line := by
  unfold itemLines
  rw [List.forall_mem_map]
  intro item held
  exact oneLine_append.mpr ⟨oneLine_append.mpr ⟨named, by decide⟩, h item held⟩

theorem oneLine_paragraph {var : Text} (named : OneLine var) (h : ∀ s ∈ items, OneLine s) :
    ∀ line ∈ paragraph var items, OneLine line := by
  unfold paragraph
  split
  · exact nofun
  · rw [List.forall_mem_append]
    exact ⟨oneLine_itemLines named h, by simp [OneLine]⟩

theorem oneLine_banner {stamp : Stamp} (version : OneLine stamp.version) :
    ∀ line ∈ banner stamp, OneLine line := by
  have year : OneLine (decimalInt stamp.year) :=
    oneLine_of_forall (forall_mem_decimalInt (by decide) (by decide) stamp.year)
  unfold banner
  simp only [List.forall_mem_cons, oneLine_append]
  exact ⟨by decide, ⟨⟨by decide, year⟩, by decide⟩, by decide, ⟨⟨by decide, version⟩, by decide⟩,
    by decide, by decide, nofun⟩

/-- The route to a file holds the names of that file only, and no part of the key. -/
theorem oneLine_includeLine {file : Text} {names : List Text}
    (parts : (Path.mk file).parts = names.map .name) (whole : ∀ n ∈ names, OneLine n) (key : Text) :
    OneLine (includeLine file key) := by
  obtain ⟨steps, -, normal⟩ := Path.steps_of_names parts
  have inner : ∀ c ∈ Path.route (names.map .name) (Path.mk key).normalize.parts, c.Inner :=
    Path.inner_route (fun c hc => Path.inner_of_mem_steps (steps ▸ hc)) _
  unfold includeLine Path.relativeTo
  rw [normal, Path.toSlash_ofParts_inner inner]
  refine oneLine_append.mpr ⟨by decide, oneLine_joinWith (by decide) ?_⟩
  rw [List.forall_mem_map]
  intro c hc
  rcases List.mem_append.mp hc with climb | down
  · rw [List.eq_of_mem_replicate climb]
    decide
  · obtain ⟨n, named, rfl⟩ := List.mem_map.mp (List.mem_of_mem_drop down)
    exact whole n named

theorem oneLine_manifestLines {v : Vendor} {m : Manifest}
    (h : (∀ s ∈ m.dependencies.toList, OneLine s) ∧ (∀ s ∈ m.interfaceFiles.toList, OneLine s) ∧
      (∀ s ∈ m.libraryDependencies.toList, OneLine s) ∧
      ∀ s ∈ m.interfaceDependencies.toList, OneLine s) :
    ∀ line ∈ manifestLines v m, OneLine line := by
  obtain ⟨files, interfaceFiles, libraries, interfaces⟩ := h
  have named : ∀ x : Variable, OneLine x.name := by
    have words : ∀ x ∈ Variable.all, OneLine x.name := by decide
    exact fun x => words x x.mem_all
  rw [manifestLines_eq]
  simp only [List.forall_mem_append]
  exact ⟨⟨oneLine_paragraph (named (.vendorFiles v)) files,
    oneLine_paragraph (named (.vendorFiles v)) interfaceFiles⟩,
    oneLine_paragraph (named (.vendorLibraries v)) libraries,
    oneLine_paragraph (named (.vendorInterfaces v)) interfaces⟩

theorem oneLine_ofLibrary {l : Library} {stamp : Stamp} (quotable : Quotable l)
    (version : OneLine stamp.version) (key : Text) : ∀ line ∈ ofLibrary key l stamp, OneLine line := by
  have rules : (Path.mk "scripts/library.mk").parts =
      ["scripts".toList, "library.mk".toList].map .name := by decide
  unfold ofLibrary
  simp only [List.flatten_cons, List.flatten_nil, List.append_nil, List.forall_mem_append,
    List.forall_mem_cons]
  refine ⟨oneLine_banner version, ⟨oneLine_append.mpr ⟨by decide, quotable.name⟩, by decide, nofun⟩,
    oneLine_itemLines (by decide) quotable.generic, ⟨by decide, nofun⟩, fun line held => ?_,
    oneLine_includeLine rules (by decide) key, nofun⟩
  obtain ⟨e, he, inside⟩ := List.mem_flatMap.mp held
  exact oneLine_manifestLines (quotable.manifests e he) line inside

theorem oneLine_ofProject {p : Project} {stamp : Stamp} (name : OneLine p.name)
    (files : ∀ s ∈ p.files, OneLine s) (libraries : ∀ s ∈ p.libraries.toList, OneLine s)
    (version : OneLine stamp.version) (key : Text) : ∀ line ∈ ofProject key p stamp, OneLine line := by
  have quoted : ∀ n ∈ ["scripts".toList, "project-".toList ++ p.vendor.name ++ ".mk".toList],
      OneLine n := by
    cases p.vendor <;> decide
  unfold ofProject
  simp only [List.flatten_cons, List.flatten_nil, List.append_nil, List.forall_mem_append,
    List.forall_mem_cons]
  exact ⟨oneLine_banner version, ⟨oneLine_append.mpr ⟨by decide, name⟩, by decide, nofun⟩,
    oneLine_itemLines (by decide) files, ⟨by decide, nofun⟩,
    oneLine_itemLines (by decide) libraries, ⟨by decide, nofun⟩,
    oneLine_includeLine (Path.names_projectRules p.vendor) quoted key, nofun⟩

/-! ### Both makefiles -/

theorem filterMap_ofLibrary (key : Text) (l : Library) (stamp : Stamp) (x : Variable) :
    (ofLibrary key l stamp).filterMap (added? x.name) = listedBy l x := by
  have named : (["LIBRARY_NAME := " ++ l.name, []] : List Text).filterMap (added? x.name) = [] :=
    filterMap_heading "LIBRARY_NAME" rfl (by decide) x
  have generic := filterMap_itemLines x .genericFiles l.generic.toList
  unfold ofLibrary
  simp only [List.flatten_cons, List.flatten_nil, List.append_nil, List.filterMap_append,
    filterMap_banner, named, filterMap_empty, filterMap_includeLine, List.nil_append,
    List.filterMap_flatMap, filterMap_manifestLines]
  rw [show ("GENERIC_DEPS" : Text) = Variable.genericFiles.name from rfl, generic]
  -- of the vendors' lines only those of one vendor add to a vendor's variable
  cases x with
  | genericFiles => simp [listedBy]
  | vendorFiles v =>
    simpa [listedBy] using Table.flatMap_under l.vendors v fun m =>
      m.dependencies.toList ++ m.interfaceFiles.toList
  | vendorLibraries v =>
    simpa [listedBy] using Table.flatMap_under l.vendors v fun m => m.libraryDependencies.toList
  | vendorInterfaces v =>
    simpa [listedBy] using Table.flatMap_under l.vendors v fun m => m.interfaceDependencies.toList
  | projectFiles => simp [listedBy]
  | projectLibraries => simp [listedBy]

theorem filterMap_ofProject (key : Text) (p : Project) (stamp : Stamp) (x : Variable) :
    (ofProject key p stamp).filterMap (added? x.name) = listedIn p x := by
  have named : (["PROJECT_NAME := " ++ p.name, []] : List Text).filterMap (added? x.name) = [] :=
    filterMap_heading "PROJECT_NAME" rfl (by decide) x
  have own := filterMap_itemLines x .projectFiles p.files
  have needed := filterMap_itemLines x .projectLibraries p.libraries.toList
  unfold ofProject
  simp only [List.flatten_cons, List.flatten_nil, List.append_nil, List.filterMap_append,
    filterMap_banner, named, filterMap_empty, filterMap_includeLine, List.nil_append]
  rw [show ("M_DEPS" : Text) = Variable.projectFiles.name from rfl, own,
    show ("LIB_DEPS" : Text) = Variable.projectLibraries.name from rfl, needed]
  cases x <;> simp [listedIn]

/-- From the makefile of every library each variable collects what the library lists for it, and
nothing for a vendor that the library lacks; likewise from the makefile of every project. No line
adds to two variables. -/
theorem collect_written :
    (∀ (key : Text) (l : Library) (stamp : Stamp), Quotable l → OneLine stamp.version →
      ∀ x : Variable, collect x.name (unlines (ofLibrary key l stamp)) = listedBy l x) ∧
    (∀ (key : Text) (p : Project) (stamp : Stamp), OneLine p.name → (∀ s ∈ p.files, OneLine s) →
      (∀ s ∈ p.libraries.toList, OneLine s) → OneLine stamp.version →
      ∀ x : Variable, collect x.name (unlines (ofProject key p stamp)) = listedIn p x) ∧
    ∀ (x y : Variable) (line item item' : Text), added? x.name line = some item →
      added? y.name line = some item' → x = y := by
  refine ⟨fun key l stamp quotable version x => ?_,
    fun key p stamp name files libraries version x => ?_, fun x y line item item' h h' => ?_⟩
  · unfold collect
    rw [lines_unlines (oneLine_ofLibrary quotable version key), filterMap_ofLibrary]
  · unfold collect
    rw [lines_unlines (oneLine_ofProject name files libraries version key), filterMap_ofProject]
  · have word := word_of_added? x.blank_not_mem_name h
    exact Variable.name_inj (word.symm.trans (word_of_added? y.blank_not_mem_name h'))

/-- A library with one vendor, one of whose files is named like a line of another variable. -/
def fifoLibrary : Library where
  name := "util_fifo"
  vendors := Table.empty.insert .xilinx {
    dependencies := .ofList ["fifo.tcl", "XILINX_LIB_DEPS += core"]
    libraryDependencies := .ofList ["common"]
    interfaceFiles := .ofList ["../if/fifo_wr.xml"] }
  generic := .ofList ["fifo.v", "address_sync.v"]

def fifoProject : Project where
  name := "fifo_demo"
  vendor := .xilinx
  libraries := .ofList ["util_fifo", "axi_dmac"]
  files := ["system_top.v", "bd.tcl"]

def fifoStamp : Stamp := ⟨"0.1.0", "Mar 04 10:12:45 2025", 2025⟩

theorem quotable_fifoLibrary : Quotable fifoLibrary :=
  ⟨by decide, by decide, by decide +kernel⟩

theorem collect_written_fifo :
    collect "XILINX_DEPS" (unlines (ofLibrary "util_fifo" fifoLibrary fifoStamp)) =
      ["XILINX_LIB_DEPS += core".toList, "fifo.tcl".toList, "../if/fifo_wr.xml".toList] ∧
    collect "XILINX_LIB_DEPS" (unlines (ofLibrary "util_fifo" fifoLibrary fifoStamp)) =
      ["common".toList] ∧
    collect "INTEL_DEPS" (unlines (ofLibrary "util_fifo" fifoLibrary fifoStamp)) = [] ∧
    collect "M_DEPS" (unlines (ofProject "fifo/zed" fifoProject fifoStamp)) =
      ["system_top.v".toList, "bd.tcl".toList] ∧
    collect "LIB_DEPS" (unlines (ofProject "fifo/zed" fifoProject fifoStamp)) =
      ["axi_dmac".toList, "util_fifo".toList] := by
  have ofLibrary := collect_written.1 "util_fifo" fifoLibrary fifoStamp quotable_fifoLibrary (by decide)
  have ofProject := collect_written.2.1 "fifo/zed" fifoProject fifoStamp (by decide) (by decide)
    (by decide +kernel) (by decide)
  exact ⟨(ofLibrary (.vendorFiles .xilinx)).trans (by decide +kernel),
    (ofLibrary (.vendorLibraries .xilinx)).trans (by decide +kernel),
    (ofLibrary (.vendorFiles .intel)).trans (by decide +kernel),
    (ofProject .projectFiles).trans (by decide +kernel),
    (ofProject .projectLibraries).trans (by decide +kernel)⟩

end Gateware.Makefile
