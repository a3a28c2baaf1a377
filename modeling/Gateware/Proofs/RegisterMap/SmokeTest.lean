import Gateware.Proofs.Text.Literal
import Gateware.RegisterMap.SmokeTest

/-!
# What the smoke test covers

The program of the smoke test is read here line by line for the packages that it imports, the
objects that it declares and those that it constructs, and the script for the sources that it adds.
Each tells the keys of the maps, in their order (`importedKeys_testProgram` and those after it).
-/

namespace Gateware.RegisterMap

open Text

/-! ### Reading the lines -/

def between? (before after line : Text) : Option Text :=
  (stripStart? before line).bind (stripEnd? after)

def importedKey? (line : Text) : Option Text := between? "import adi_regmap_" "_pkg::*;" line

/-- The key whose class and object a line declares; both bear it. -/
def declaredKey? (line : Text) : Option Text :=
  ((stripStart? "  adi_regmap_" line).bind (cut? [' '])).bind fun (key, object) =>
    if object = "adi_regmap_" ++ key ++ "_rm;" then some key else none

/-- The key whose object a line constructs under that key, at address zero. -/
def constructedKey? (line : Text) : Option Text :=
  ((stripStart? "    adi_regmap_" line).bind (cut? [' '])).bind fun (object, call) =>
    (stripEnd? "_rm" object).filter fun key =>
      startsWith ("= new(\"" ++ key ++ "\", 0") call && endsWith ");" call

def addedKey? (line : Text) : Option Text := between? "SOURCE+=\"adi_regmap_" "_pkg.sv \"" line

def importedKeys (program : List Text) : List Text := program.filterMap importedKey?

def declaredKeys (program : List Text) : List Text := program.filterMap declaredKey?

def constructedKeys (program : List Text) : List Text := program.filterMap constructedKey?

def addedKeys (script : List Text) : List Text := script.filterMap addedKey?

/-! ### One line -/

theorem between?_append (before key after : Text) :
    between? before after (before ++ key ++ after) = some key := by
  unfold between?
  rw [List.append_assoc, stripStart?_append, Option.bind_some, stripEnd?_eq_some_iff]

theorem declaredKey?_declaration {key : Text} (blank : ' ' ∉ key) :
    declaredKey? ("  adi_regmap_" ++ key ++ " adi_regmap_" ++ key ++ "_rm;") = some key := by
  have lead : ("  adi_regmap_" ++ key ++ " adi_regmap_" ++ key ++ "_rm;" : Text) =
      "  adi_regmap_" ++ (key ++ ' ' :: ("adi_regmap_" ++ key ++ "_rm;")) := by simp
  unfold declaredKey?
  rw [lead, stripStart?_append, Option.bind_some, cut?_append blank, Option.bind_some]
  exact if_pos rfl

theorem constructedKey?_constructionLine {key : Text} (blank : ' ' ∉ key) (m : RegisterMap) :
    constructedKey? (constructionLine key m) = some key := by
  have call : ("_rm = new(\"" : Text) = "_rm" ++ ' ' :: "= new(\"" := by decide
  have lead : constructionLine key m = "    adi_regmap_" ++ (key ++ "_rm" ++ ' ' ::
      ("= new(\"" ++ key ++ "\", 0" ++
        (argumentsText (m.parameters.toList.map fun _ => ['0']) ++ ");"))) := by
    unfold constructionLine
    rw [call]
    simp only [List.append_assoc, List.cons_append]
  have solid : ' ' ∉ key ++ ("_rm" : Text) := by
    rw [List.mem_append, not_or]
    exact ⟨blank, by decide⟩
  unfold constructedKey?
  rw [lead, stripStart?_append, Option.bind_some, cut?_append solid, Option.bind_some]
  simp only
  rw [stripEnd?_eq_some_iff.mpr rfl, Option.filter_some, if_pos]
  rw [Bool.and_eq_true, startsWith_iff, endsWith_iff]
  exact ⟨⟨_, rfl⟩, _, (List.append_assoc _ _ _).symm⟩

/-! ### The files -/

/-- What is read of a file that has one line of its own kind for each item. -/
theorem filterMap_lines {α : Type} {f : Text → Option Text} {line : α → Text} {key : α → Text}
    {l : List α} (h : ∀ a ∈ l, f (line a) = some (key a)) :
    (l.map line).filterMap f = l.map key := by
  induction l with
  | nil => rfl
  | cons a l ih =>
    rw [List.map_cons, List.filterMap_cons_some (h a List.mem_cons_self),
      ih fun b hb => h b (List.mem_cons_of_mem a hb), List.map_cons]

theorem filterMap_other {α : Type} {f : Text → Option Text} {line : α → Text} {l : List α}
    (h : ∀ a, f (line a) = none) : (l.map line).filterMap f = [] := by
  rw [List.filterMap_map, List.filterMap_eq_nil_iff]
  exact fun a _ => h a

/-- The lines of the program that depend on the maps; the others are those of the empty table. -/
theorem filterMap_testProgram {f : Text → Option Text}
    (fixed : (testProgram .empty).filterMap f = []) (t : MapTable) :
    (testProgram t).filterMap f =
      (t.keys.map fun key : Text => ("import adi_regmap_" ++ key ++ "_pkg::*;" : Text)).filterMap f ++
      ((t.keys.map fun key : Text =>
        ("  adi_regmap_" ++ key ++ " adi_regmap_" ++ key ++ "_rm;" : Text)).filterMap f ++
        (t.entries.map fun e => constructionLine e.1 e.2).filterMap f) := by
  unfold testProgram at fixed ⊢
  simp only [List.flatten_cons, List.flatten_nil, List.filterMap_append,
    List.append_eq_nil_iff] at fixed ⊢
  obtain ⟨opening, -, heading, -, body, -, closing, -⟩ := fixed
  simp only [opening, heading, body, closing, List.nil_append, List.filterMap_nil, List.append_nil]

theorem importedKeys_testProgram (t : MapTable) : importedKeys (testProgram t) = t.keys := by
  have fixed : (testProgram .empty).filterMap importedKey? = [] := by decide
  unfold importedKeys
  rw [filterMap_testProgram fixed, filterMap_lines (f := importedKey?) fun key _ =>
      between?_append "import adi_regmap_" key "_pkg::*;",
    filterMap_other (l := t.keys) fun _ => rfl, filterMap_other (l := t.entries) fun _ => rfl]
  simp

theorem declaredKeys_testProgram {t : MapTable} (blank : ∀ key ∈ t.keys, ' ' ∉ key) :
    declaredKeys (testProgram t) = t.keys := by
  have fixed : (testProgram .empty).filterMap declaredKey? = [] := by decide
  unfold declaredKeys
  rw [filterMap_testProgram fixed, filterMap_other (l := t.entries) fun _ => rfl,
    filterMap_lines fun key hk => declaredKey?_declaration (blank key hk),
    filterMap_other (l := t.keys) fun _ => rfl]
  simp

theorem constructedKeys_testProgram {t : MapTable} (blank : ∀ key ∈ t.keys, ' ' ∉ key) :
    constructedKeys (testProgram t) = t.keys := by
  have fixed : (testProgram .empty).filterMap constructedKey? = [] := by decide
  have named : ∀ e ∈ t.entries, constructedKey? (constructionLine e.1 e.2) = some e.1 :=
    fun e he => constructedKey?_constructionLine (blank e.1 (List.mem_map_of_mem he)) e.2
  unfold constructedKeys
  rw [filterMap_testProgram fixed, filterMap_lines named, filterMap_other (l := t.keys) fun _ => rfl,
    filterMap_other (l := t.keys) fun _ => rfl]
  rfl

theorem addedKeys_testScript (t : MapTable) : addedKeys (testScript t) = t.keys := by
  have fixed : (testScript .empty).filterMap addedKey? = [] := by decide
  have packages := filterMap_lines (f := addedKey?) (l := t.keys)
    fun key _ => between?_append "SOURCE+=\"adi_regmap_" key "_pkg.sv \""
  unfold testScript at fixed
  unfold addedKeys testScript
  simp only [List.flatten_cons, List.flatten_nil, List.filterMap_append,
    List.append_eq_nil_iff] at fixed ⊢
  obtain ⟨opening, sources, -, program, copies, run, -⟩ := fixed
  simp only [opening, sources, program, copies, run, List.nil_append, List.filterMap_nil,
    List.append_nil]
  exact packages.trans (List.map_id _)

end Gateware.RegisterMap
