import Gateware.Proofs.Verilog.Comments
import Gateware.Proofs.Verilog.Declaration

/-!
# Parameters of a written header

The declarations of a header are found one by one (`parametersOf_lines`), and no comment begins in it
(`removeComments_header`). So `parameters_header` gives the defaults that are written exactly when
there is no comma in them.
-/

namespace Gateware.Verilog

open Text

variable {a b s t w : Text} {d : Declaration}

/-! ### The list of parameters -/

/-- A declaration on a line of its own. -/
def lineOf (indent : Text) (d : Declaration) : Text := "\n" ++ indent ++ d.text

/-- The pairs of names and values as parameters. -/
def parametersOf (found : List (Text × Text)) : List ModuleParameter :=
  found.map fun (name, value) => ⟨name, trim (balanced 0 value)⟩

theorem last_seps (prev : Option Char) (nonempty : t ≠ []) (h : ∀ c ∈ t, isWordChar c = false) :
    (t.getLast?.or prev).any isWordChar = false := by
  rw [List.getLast?_eq_some_getLast nonempty]
  exact h _ (List.getLast_mem nonempty)

theorem parametersOf_cons (name value : Text) (found : List (Text × Text)) :
    parametersOf ((name, value) :: found) =
      ⟨name, trim (balanced 0 value)⟩ :: parametersOf found := rfl

theorem parametersOf_lines (prev : Option Char) {indent : Text}
    (blank : ∀ c ∈ indent, isBlank c = true)
    (none : findFrom declaration? (some '(') s = []) {ds : List Declaration}
    (written : ∀ d ∈ ds, d.WellFormed) :
    parametersOf (findFrom declaration? prev
        (joinWith "," (ds.map (lineOf indent)) ++ ')' :: ' ' :: '(' :: s)) =
      ds.map fun d => ⟨d.name, trimEnd d.shown⟩ := by
  have noWord : ∀ c ∈ '\n' :: indent, isWordChar c = false :=
    List.forall_mem_cons.mpr ⟨by decide, fun c hc => isWordChar_of_isBlank (blank c hc)⟩
  have outside (prev : Option Char) := last_seps prev (List.cons_ne_nil '\n' indent) noWord
  induction ds generalizing prev with
  | nil =>
    show parametersOf (findFrom declaration? prev (')' :: ' ' :: '(' :: s)) = []
    rw [findFrom_sep (by decide), findFrom_sep (by decide), findFrom_sep (by decide), none]
    rfl
  | cons d ds ih =>
    have own := written d List.mem_cons_self
    cases ds with
    | nil =>
      obtain ⟨value, found, ends⟩ := findFrom_last own (outside prev) none
      have text : joinWith "," ([d].map (lineOf indent)) ++ ')' :: ' ' :: '(' :: s =
          ('\n' :: indent) ++ (d.text ++ ')' :: ' ' :: '(' :: s) := by
        simp [joinWith, lineOf]
      rw [text, findFrom_seps noWord, found]
      simp [parametersOf, ends, trim_shown own]
    | cons e ds =>
      have text : joinWith "," ((d :: e :: ds).map (lineOf indent)) ++ ')' :: ' ' :: '(' :: s =
          ('\n' :: indent) ++ (d.text ++ ',' ::
            (joinWith "," ((e :: ds).map (lineOf indent)) ++ ')' :: ' ' :: '(' :: s)) := by
        simp [joinWith, lineOf]
      rw [text, findFrom_seps noWord, findFrom_text own (outside prev)]
      have rest := ih (some ',') fun d hd => written d (List.mem_cons_of_mem _ hd)
      rw [parametersOf_cons, rest, balanced_shown own, trim_shown own]
      rfl

/-! ### Comments -/

theorem uncommented_iff_absent : Uncommented s ↔ ¬ ['/', '*'] <:+: s ∧ ¬ ['/', '/'] <:+: s := by
  rw [← uncommented_iff, ← Bool.not_eq_true, ← Bool.not_eq_true, includes_iff, includes_iff]
  rfl

/-- A text without slashes stands before any other. -/
theorem Uncommented.after (hb : Uncommented b) (clean : '/' ∉ a) : Uncommented (a ++ b) := by
  induction a with
  | nil => exact hb
  | cons c a ih =>
    obtain ⟨other, later⟩ := List.ne_and_not_mem_of_not_mem_cons clean
    have rest := uncommented_iff_absent.mp (ih later)
    have miss (x : Char) : ¬ ['/', x] <+: c :: (a ++ b) := fun here =>
      other (List.cons_prefix_cons.mp here).1
    rw [uncommented_iff_absent, List.cons_append, List.infix_cons_iff, List.infix_cons_iff]
    exact ⟨not_or.mpr ⟨miss '*', rest.1⟩, not_or.mpr ⟨miss '/', rest.2⟩⟩

theorem uncommented_of_not_mem (h : '/' ∉ s) : Uncommented s := by
  have nothing : Uncommented [] := by decide
  simpa using nothing.after h

/-- What is no part of a mark keeps comments apart. -/
theorem Uncommented.join {c : Char} (ha : Uncommented a) (hb : Uncommented b) (slash : c ≠ '/')
    (star : c ≠ '*') : Uncommented (a ++ c :: b) := by
  rw [uncommented_iff_absent] at ha hb ⊢
  constructor
  · rw [infix_append_cons_iff (by simp) (by simp [slash, star])]
    exact not_or.mpr ⟨ha.1, hb.1⟩
  · rw [infix_append_cons_iff (by simp) (by simp [slash])]
    exact not_or.mpr ⟨ha.2, hb.2⟩

theorem slash_not_mem_of_word (word : ∀ c ∈ w, isWordChar c = true) : '/' ∉ w := by
  intro mem
  exact absurd (word '/' mem) (by decide)

theorem slash_not_mem_of_blank (blank : ∀ c ∈ w, isBlank c = true) : '/' ∉ w := by
  intro mem
  exact absurd (blank '/' mem) (by decide)

theorem slash_not_mem_typeText (written : d.WellFormed) : '/' ∉ d.typeText := by
  unfold Declaration.typeText
  cases type : d.type with
  | none => simp
  | some t =>
    have word := slash_not_mem_of_word (isWordChar_of_typeWord (written.type t type)).2
    show '/' ∉ t ++ " "
    simp [word]

theorem uncommented_text (written : d.WellFormed) : Uncommented d.text := by
  have type := slash_not_mem_typeText written
  have name := slash_not_mem_of_word (isWordChar_of_identifier written.identifier).2
  have named : Uncommented ((d.name ++ [' ', '=', ' ']) ++ d.default) :=
    written.uncommented.after (by simp [name])
  have bounded : Uncommented (d.boundsText ++ ((d.name ++ [' ', '=', ' ']) ++ d.default)) := by
    unfold Declaration.boundsText
    cases bounds : d.bounds with
    | none => exact named
    | some b =>
      have closed := (written.bounds b bounds).2.join (named.after (a := [' ']) (by decide))
        (c := ']') (by decide) (by decide)
      have whole := closed.after (a := ['[']) (by decide)
      simpa using whole
  have typed := bounded.after (a := "parameter" ++ ' ' :: d.typeText) (by
    rw [List.mem_append, List.mem_cons]
    simp [type])
  unfold Declaration.text
  rw [front_eq]
  simpa using typed

theorem uncommented_lines {indent : Text} (blank : ∀ c ∈ indent, isBlank c = true)
    {ds : List Declaration} (written : ∀ d ∈ ds, d.WellFormed) :
    Uncommented (joinWith "," (ds.map (lineOf indent))) := by
  have front : '/' ∉ '\n' :: indent := by simp [slash_not_mem_of_blank blank]
  have line (d : Declaration) (own : d.WellFormed) : Uncommented (lineOf indent d) :=
    (uncommented_text own).after front
  induction ds with
  | nil => exact uncommented_of_not_mem (by simp [joinWith])
  | cons d ds ih =>
    have own := line d (written d List.mem_cons_self)
    cases ds with
    | nil => exact own
    | cons e ds =>
      have rest := ih fun d hd => written d (List.mem_cons_of_mem _ hd)
      have whole := own.join rest (c := ',') (by decide) (by decide)
      have text : joinWith "," ((d :: e :: ds).map (lineOf indent)) =
          lineOf indent d ++ ',' :: joinWith "," ((e :: ds).map (lineOf indent)) := by
        simp [joinWith]
      rw [text]
      exact whole

/-! ### The whole header -/

/-- The header up to its ports. -/
def headerFront (name indent : Text) (ds : List Declaration) : Text :=
  "module " ++ name ++ " #(" ++ joinWith "," (ds.map (lineOf indent)) ++ ") ("

theorem header_eq (name indent : Text) (ds : List Declaration) (ports : Text) :
    header name indent ds ports = headerFront name indent ds ++ ports := rfl

theorem removeComments_header {name indent ports : Text} (known : isIdentifier name = true)
    (blank : ∀ c ∈ indent, isBlank c = true) {ds : List Declaration}
    (written : ∀ d ∈ ds, d.WellFormed) :
    removeComments (header name indent ds ports) =
      headerFront name indent ds ++ removeComments ports := by
  have front : '/' ∉ "module " ++ name ++ " #(" := by
    have word := slash_not_mem_of_word (isWordChar_of_identifier known).2
    simp [word]
  have clean : Uncommented (headerFront name indent ds) := by
    have opening : Uncommented " (" := by decide
    have lines := (uncommented_lines blank written).join opening
      (c := ')') (by decide) (by decide)
    have whole := lines.after front
    unfold headerFront
    simpa using whole
  have last : (headerFront name indent ds).getLast? ≠ some '/' := by
    have ends : (") (" : Text).getLast? = some '(' := by decide
    unfold headerFront
    rw [List.getLast?_append, ends]
    simp
  obtain ⟨noBlock, noLine⟩ := uncommented_iff_absent.mp clean
  rw [removeComments_eq, header_eq, removeBlocks_append noBlock last,
    removeLines_append noLine fun same => absurd same last]
  rfl

theorem wordless_title {name : Text} (known : isIdentifier name = true)
    (other : name ≠ "parameter") :
    ("parameter" : Text) ∉ sourceWords ("module " ++ name) := by
  obtain ⟨nonempty, word⟩ := isWordChar_of_identifier known
  have shape : ("module " : Text) ++ name = "module" ++ ' ' :: name := rfl
  have own : sourceWords name = [name] := by
    unfold sourceWords wordsBy
    rw [pieces_eq_singleton fun c hc => by simp [word c hc]]
    simp [nonempty]
  rw [shape, sourceWords_append_sep (by decide), own, List.mem_append, List.mem_singleton]
  rintro (title | same)
  · exact absurd title (by decide)
  · exact other same.symm

/-- Ports without parameters have none behind a bracket either. -/
theorem findFrom_ports {ports : Text} (none : parameters ports = []) :
    findFrom declaration? (some '(') (removeComments ports) = [] := by
  have start : findFrom declaration? .none (removeComments ports) = [] :=
    List.map_eq_nil_iff.mp none
  rw [← start]
  refine findFrom_congr ?_
  unfold declaration?
  have edge : (some '(').any isWordChar = Option.none.any isWordChar := rfl
  rw [edge]

theorem parameters_shown {name indent ports : Text} (known : isIdentifier name = true)
    (other : name ≠ "parameter") (blank : ∀ c ∈ indent, isBlank c = true) {ds : List Declaration}
    (written : ∀ d ∈ ds, d.WellFormed) (none : parameters ports = []) :
    parameters (header name indent ds ports) = ds.map fun d => ⟨d.name, trimEnd d.shown⟩ := by
  have text : headerFront name indent ds ++ removeComments ports =
      ("module " ++ name) ++ ([' ', '#', '('] ++ (joinWith "," (ds.map (lineOf indent)) ++
        ')' :: ' ' :: '(' :: removeComments ports)) := by
    unfold headerFront
    simp only [List.append_assoc]
    rfl
  have opening : ∀ c ∈ [' ', '#', '('], isWordChar c = false := by
    rintro c hc
    simp only [List.mem_cons, List.not_mem_nil, or_false] at hc
    rcases hc with rfl | rfl | rfl <;> decide
  unfold parameters
  rw [removeComments_header known blank written, text, findAll_eq_findFrom,
    findFrom_wordless (wordless_title known other) (by rintro _ ⟨⟩; decide),
    findFrom_seps opening]
  exact parametersOf_lines _ blank (findFrom_ports none) written

/-- A header gives its parameters in order, each with its default up to the first comma. So they are
the ones that are written exactly when no default has a comma. -/
theorem parameters_header {name indent ports : Text} {ds : List Declaration}
    (known : isIdentifier name = true) (other : name ≠ "parameter")
    (blank : ∀ c ∈ indent, isBlank c = true) (written : ∀ d ∈ ds, d.WellFormed)
    (none : parameters ports = []) :
    parameters (header name indent ds ports) =
        ds.map (fun d => ⟨d.name, trimEnd (d.default.takeWhile (· != ','))⟩) ∧
      (parameters (header name indent ds ports) = ds.map Declaration.parameter ↔
        ∀ d ∈ ds, ',' ∉ d.default) := by
  have found : parameters (header name indent ds ports) =
      ds.map (fun d => ⟨d.name, trimEnd d.shown⟩) :=
    parameters_shown known other blank written none
  refine ⟨found, ?_⟩
  rw [found, List.map_inj_left]
  refine forall₂_congr fun d hd => ?_
  rw [← trimEnd_shown_iff (written d hd)]
  simp [Declaration.parameter]

theorem parameters_header_nested :
    parameters (header "timer" "  "
        [⟨none, some "7:0", "MODE", "\x7b2\x7b4'h1\x7d\x7d"⟩,
          ⟨some "integer", none, "ID", "(2 * 4)"⟩]
        "\n  input clk);\nendmodule\n") =
      [⟨"MODE", "\x7b2\x7b4'h1\x7d\x7d"⟩, ⟨"ID", "(2 * 4)"⟩] := by
  have written : ∀ d ∈ [(⟨none, some "7:0", "MODE", "\x7b2\x7b4'h1\x7d\x7d"⟩ : Declaration),
      ⟨some "integer", none, "ID", "(2 * 4)"⟩], d.WellFormed := by decide +kernel
  have none : parameters "\n  input clk);\nendmodule\n" = [] := by decide +kernel
  have read := @parameters_header "timer" "  " _ _ (by decide) (by decide)
    (List.all_eq_true.mp (by decide)) written none
  exact read.2.mpr (by decide +kernel)

/-- A concatenation is cut at its comma, though its brackets are still open there. -/
theorem not_exact_concatenation :
    ¬ ∀ (name indent ports : Text) (ds : List Declaration), isIdentifier name = true →
      name ≠ "parameter" → (∀ c ∈ indent, isBlank c = true) → (∀ d ∈ ds, d.WellFormed) →
      parameters ports = [] →
      parameters (header name indent ds ports) = ds.map Declaration.parameter := by
  intro exact
  have written : ∀ d ∈ [(⟨none, some "7:0", "SEED", "\x7b4'h1, 4'h2\x7d"⟩ : Declaration),
      ⟨none, none, "ID", "0"⟩], d.WellFormed := by decide +kernel
  have none : parameters "\n  input clk);\nendmodule\n" = [] := by decide +kernel
  have read := exact "m" "  " _ _ (by decide) (by decide) (List.all_eq_true.mp (by decide))
    written none
  have cut : parameters (header "m" "  " [⟨.none, some "7:0", "SEED", "\x7b4'h1, 4'h2\x7d"⟩,
      ⟨.none, .none, "ID", "0"⟩] "\n  input clk);\nendmodule\n") =
      [⟨"SEED", "\x7b4'h1"⟩, ⟨"ID", "0"⟩] := by decide +kernel
  rw [cut] at read
  exact absurd read (by decide +kernel)

end Gateware.Verilog
