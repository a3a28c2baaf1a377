import Gateware.Verilog

/-!
# Headers of modules

The header of a module with one parameter a line, and the parameters that can be written there:
`Declaration.WellFormed` says what a reader must be able to rely on, and can be decided.
-/

namespace Gateware.Verilog

open Text

/-- A parameter with its type and the bounds of its vector, where it has any. -/
structure Declaration where
  type : Option Text
  bounds : Option Text
  name : Text
  default : Text

namespace Declaration

def parameter (d : Declaration) : ModuleParameter := ⟨d.name, d.default⟩

def typeText (d : Declaration) : Text := (d.type.map fun (t : Text) => t ++ " ").getD []

def boundsText (d : Declaration) : Text := (d.bounds.map fun (b : Text) => "[" ++ b ++ "] ").getD []

/-- What stands before the default. -/
def front (d : Declaration) : Text :=
  "parameter " ++ (d.typeText ++ (d.boundsText ++ (d.name ++ " = ")))

def text (d : Declaration) : Text := d.front ++ d.default

end Declaration

/-- The header and what follows it, from the ports on. -/
def header (name indent : Text) (ds : List Declaration) (ports : Text) : Text :=
  "module " ++ name ++ " #(" ++ joinWith "," (ds.map fun d => "\n" ++ indent ++ d.text) ++
    ") (" ++ ports

/-! ### What can be written -/

/-- Letters, digits and underscores, with no digit in front. -/
def isIdentifier : Text → Bool
  | [] => false
  | c :: s => (c.isAlpha || c == '_') && s.all fun c => c.isAlphanum || c == '_'

/-- Brackets close what they open, from a depth on, and commas stand inside of them only. -/
def nested : (depth : Nat) → Text → Bool
  | depth, [] => depth == 0
  | depth, c :: s =>
    if c = '(' ∨ c = '\x7b' then nested (depth + 1) s
    else if c = ')' ∨ c = '\x7d' then
      match depth with
      | 0 => false
      | depth + 1 => nested depth s
    else if c = ',' ∧ depth = 0 then false
    else nested depth s

/-- The words of a source, whatever stands between them. -/
def sourceWords (s : Text) : List Text := wordsBy (fun c => !isWordChar c) s

/-- No comment begins in the text. -/
structure Uncommented (s : Text) : Prop where
  block : includes "/*" s = false
  line : includes "//" s = false

theorem uncommented_iff {s : Text} :
    (includes "/*" s = false ∧ includes "//" s = false) ↔ Uncommented s :=
  ⟨fun ⟨a, b⟩ => ⟨a, b⟩, fun ⟨a, b⟩ => ⟨a, b⟩⟩

instance (s : Text) : Decidable (Uncommented s) := decidable_of_iff _ uncommented_iff

/-- A declaration that can be read back: a known type, bounds that end where they are closed, a name
that is no type, and a default on one line in which nothing ends the parameter or begins another. -/
structure Declaration.WellFormed (d : Declaration) : Prop where
  type : ∀ t ∈ d.type, t ∈ typeWords
  bounds : ∀ b ∈ d.bounds, ']' ∉ b ∧ Uncommented b
  identifier : isIdentifier d.name = true
  noType : d.name ∉ typeWords
  nonempty : d.default ≠ []
  trimmed : trim d.default = d.default
  line : '\n' ∉ d.default
  statement : ';' ∉ d.default
  uncommented : Uncommented d.default
  single : ("parameter" : Text) ∉ sourceWords d.default
  nested : nested 0 d.default = true

theorem Declaration.wellFormed_iff {d : Declaration} :
    ((∀ t ∈ d.type, typeWords.contains t = true) ∧ (∀ b ∈ d.bounds, ']' ∉ b ∧ Uncommented b) ∧
      isIdentifier d.name = true ∧ typeWords.contains d.name = false ∧ d.default ≠ [] ∧
      trim d.default = d.default ∧ '\n' ∉ d.default ∧ ';' ∉ d.default ∧ Uncommented d.default ∧
      (sourceWords d.default).contains "parameter" = false ∧
      Verilog.nested 0 d.default = true) ↔ d.WellFormed := by
  simp only [← Bool.not_eq_true, List.contains_iff_mem]
  exact ⟨fun ⟨a, b, c, d, e, f, g, h, i, j, k⟩ => ⟨a, b, c, d, e, f, g, h, i, j, k⟩,
    fun ⟨a, b, c, d, e, f, g, h, i, j, k⟩ => ⟨a, b, c, d, e, f, g, h, i, j, k⟩⟩

instance (d : Declaration) : Decidable d.WellFormed := decidable_of_iff _ d.wellFormed_iff

end Gateware.Verilog
