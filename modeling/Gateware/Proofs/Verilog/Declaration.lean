import Gateware.Proofs.Text.CodeSet
import Gateware.Proofs.Text.Literal
import Gateware.Proofs.Text.Lookback
import Gateware.Proofs.Text.Trim
import Gateware.Verilog.Header
import Mathlib.Data.List.TakeWhile

/-!
# Declarations of parameters

What stands between two declarations is passed over (`findFrom_wordless`), a declaration is read up
to the end of its value (`findFrom_declaration`), and of the value the brackets leave what belongs
to the parameter (`balanced_append`, `balanced_prefix`). A value ends at any comma, so a default is
found up to its first one: before another declaration (`findFrom_text`) and before the bracket that
ends the list (`findFrom_last`).
-/

namespace Gateware.Verilog

open Text

variable {prev : Option Char} {a b s t r w : Text} {d : Declaration}

/-! ### Words -/

theorem sourceWords_append_sep {c : Char} (h : isWordChar c = false) (s r : Text) :
    sourceWords (s ++ c :: r) = sourceWords s ++ sourceWords r :=
  wordsBy_append_sep (by simp [h]) s r

theorem takeWord?_append (nonempty : w ≠ []) (word : ∀ c ∈ w, isWordChar c = true)
    (stop : ∀ c ∈ r.head?, isWordChar c = false) : takeWord? (w ++ r) = some (w, r) := by
  unfold takeWord?
  rw [takeWhile_append_stop word stop, dropWhile_append_stop word stop]
  cases w with
  | nil => exact absurd rfl nonempty
  | cons => rfl

theorem isWordChar_of_identifier (h : isIdentifier s = true) :
    s ≠ [] ∧ ∀ c ∈ s, isWordChar c = true := by
  have word {c : Char} (h : (c.isAlphanum || c == '_') = true) : isWordChar c = true := by
    have small : c.toNat < 0x80 := by
      have ranges : (((decide (c.val ≥ 65 ∧ c.val ≤ 90) || (c.val ≥ 97 && c.val ≤ 122)) ||
          (c.val ≥ 48 && c.val ≤ 57)) || c == '_') = true := h
      simp only [Bool.or_eq_true, Bool.and_eq_true, decide_eq_true_eq, beq_iff_eq] at ranges
      rcases ranges with (((upper | lower) | digit) | underscore)
      · exact Nat.lt_of_le_of_lt (UInt32.le_iff_toNat_le.mp upper.2) (by decide)
      · exact Nat.lt_of_le_of_lt (UInt32.le_iff_toNat_le.mp lower.2) (by decide)
      · exact Nat.lt_of_le_of_lt (UInt32.le_iff_toNat_le.mp digit.2) (by decide)
      · subst underscore
        decide
    rw [isWordChar, if_pos small, h]
  cases s with
  | nil => cases h
  | cons c s =>
    simp only [isIdentifier, Bool.and_eq_true, List.all_eq_true] at h
    obtain ⟨first, rest⟩ := h
    refine ⟨List.cons_ne_nil c s, List.forall_mem_cons.mpr ⟨word ?_, fun x hx => word (rest x hx)⟩⟩
    simp only [Char.isAlphanum, Bool.or_eq_true] at first ⊢
    exact first.imp_left .inl

theorem isWordChar_of_typeWord (h : t ∈ typeWords) : t ≠ [] ∧ ∀ c ∈ t, isWordChar c = true := by
  have each : typeWords.all (fun t => !t.isEmpty && t.all isWordChar) = true := by decide +kernel
  have one := List.all_eq_true.mp each t h
  simpa using one

/-- A declaration begins with the whole word. -/
theorem word_of_declaration? {e : (Text × Text) × Text} (found : declaration? prev s = some e) :
    prev.any isWordChar = false ∧ s.takeWhile isWordChar = "parameter" := by
  unfold declaration? at found
  split at found
  · cases found
  · rename_i outside
    refine ⟨by simpa using outside, ?_⟩
    obtain ⟨r, start, found⟩ := Option.bind_eq_some_iff.mp found
    obtain ⟨r', blank, -⟩ := Option.bind_eq_some_iff.mp found
    rw [stripStart?_eq_some_iff.mp start]
    refine takeWhile_append_stop (List.all_eq_true.mp (by decide)) ?_
    cases r with
    | nil => cases blank
    | cons c r =>
      rintro _ ⟨⟩
      have isBlank : isBlank c = true := by
        by_contra other
        simp [skipBlanks?, other] at blank
      exact isWordChar_of_isBlank isBlank

theorem declaration?_eq_none (other : s.takeWhile isWordChar ≠ "parameter") :
    declaration? prev s = none := by
  rw [Option.eq_none_iff_forall_ne_some]
  intro e found
  exact other (word_of_declaration? found).2

theorem findFrom_sep {c : Char} (h : isWordChar c = false) (s : Text) :
    findFrom declaration? prev (c :: s) = findFrom declaration? (some c) s := by
  refine findFrom_miss (declaration?_eq_none ?_)
  rw [List.takeWhile_cons_of_neg (by simp [h])]
  decide

theorem findFrom_seps (h : ∀ c ∈ t, isWordChar c = false) (s : Text) :
    findFrom declaration? prev (t ++ s) = findFrom declaration? (t.getLast?.or prev) s := by
  induction t generalizing prev with
  | nil => rfl
  | cons c t ih =>
    obtain ⟨first, rest⟩ := List.forall_mem_cons.mp h
    rw [List.cons_append, findFrom_sep first, ih rest, last_cons]

/-- A text in which the word does not occur has no declaration. -/
theorem findFrom_wordless
    (absent : ("parameter" : Text) ∉ sourceWords t) (stop : ∀ c ∈ s.head?, isWordChar c = false) :
    findFrom declaration? prev (t ++ s) = findFrom declaration? (t.getLast?.or prev) s := by
  refine findFrom_quiet fun a u split nonempty => ?_
  rw [Option.eq_none_iff_forall_ne_some]
  intro e found
  obtain ⟨edge, word⟩ := word_of_declaration? found
  have own : u.takeWhile isWordChar = "parameter" := by rw [← word, takeWhile_append_other stop]
  have same : (fun c => !!isWordChar c) = isWordChar := funext fun c => Bool.not_not _
  have mem : u.takeWhile (fun c => !!isWordChar c) ∈ sourceWords (a ++ u) := by
    refine mem_wordsBy_of_edge (fun c last => ?_) ?_
    · rw [Option.mem_def.mp last] at edge
      simpa using edge
    · rw [same, own]
      decide
  rw [same, own, ← split] at mem
  exact absent mem

/-! ### Brackets -/

theorem balanced_cons (depth : Nat) (c : Char) (s : Text) : balanced depth (c :: s) =
    if c = '(' ∨ c = '\x7b' then c :: balanced (depth + 1) s
    else if c = ')' ∨ c = '\x7d' then
      match depth with
      | 0 => []
      | depth + 1 => c :: balanced depth s
    else c :: balanced depth s := by
  cases depth <;> rfl

/-- Brackets that close what they open are passed over. -/
theorem balanced_append {depth : Nat} (h : nested depth t = true) (r : Text) :
    balanced depth (t ++ r) = t ++ balanced 0 r := by
  fun_induction nested depth t with
  | case1 depth =>
    obtain rfl : depth = 0 := by simpa using h
    rfl
  | case2 depth c t opens ih =>
    rw [List.cons_append, balanced_cons, if_pos opens, ih h, List.cons_append]
  | case3 c t opens closes => cases h
  | case4 c t opens closes depth ih =>
    rw [List.cons_append, balanced_cons, if_neg opens, if_pos closes, List.cons_append]
    simp only [ih h]
  | case5 depth c t opens closes comma => cases h
  | case6 depth c t opens closes comma ih =>
    rw [List.cons_append, balanced_cons, if_neg opens, if_neg closes, ih h, List.cons_append]

/-- No bracket of a front of such a text closes one that stands before it. -/
theorem balanced_prefix {depth : Nat} (h : nested depth (a ++ b) = true) :
    balanced depth a = a := by
  induction a generalizing depth with
  | nil => rfl
  | cons c a ih =>
    rw [balanced_cons]
    rw [List.cons_append] at h
    unfold nested at h
    split at h
    · rename_i opens
      rw [if_pos opens, ih h]
    split at h
    · rename_i opens closes
      rw [if_neg opens, if_pos closes]
      cases depth with
      | zero => cases h
      | succ depth =>
        simp only [ih h]
    split at h
    · cases h
    · rename_i opens closes comma
      rw [if_neg opens, if_neg closes, ih h]

/-! ### One declaration -/

theorem skipBlanks?_space (stop : ∀ c ∈ s.head?, isBlank c = false) :
    skipBlanks? (' ' :: s) = some s := by
  show some (s.dropWhile isBlank) = some s
  rw [dropWhile_eq_self stop]

theorem not_blank_of_word {c : Char} (h : isWordChar c = true) : isBlank c = false := by
  by_contra blank
  rw [isWordChar_of_isBlank (by simpa using blank)] at h
  cases h

/-- A word in front of a text is where the text begins. -/
theorem head?_word (nonempty : w ≠ []) (word : ∀ c ∈ w, isWordChar c = true) (r : Text) :
    ∀ c ∈ (w ++ r).head?, isWordChar c = true := by
  obtain ⟨c, w, rfl⟩ := List.exists_cons_of_ne_nil nonempty
  rintro _ ⟨⟩
  exact word c List.mem_cons_self

theorem typeWord?_append (nonempty : w ≠ []) (word : ∀ c ∈ w, isWordChar c = true)
    (stop : ∀ c ∈ s.head?, isBlank c = false) :
    typeWord? (w ++ ' ' :: s) = if typeWords.contains w then some (w, s) else none := by
  unfold typeWord?
  rw [takeWord?_append nonempty word (by rintro _ ⟨⟩; decide)]
  simp only [Option.bind_eq_bind, Option.bind_some, skipBlanks?_space stop]

theorem named?_name (known : isIdentifier w = true) (r : Text) :
    named? (w ++ ' ' :: '=' :: r) = some (w, r) := by
  obtain ⟨nonempty, word⟩ := isWordChar_of_identifier known
  unfold named?
  rw [takeWord?_append nonempty word (by rintro _ ⟨⟩; decide)]
  rfl

theorem skipBounds_bounds (closed : ']' ∉ b) (stop : ∀ c ∈ s.head?, isBlank c = false) :
    skipBounds ('[' :: (b ++ ']' :: ' ' :: s)) = s := by
  have inside : ∀ c ∈ b, (c != ']') = true := fun c hc => by
    simpa using ne_of_mem_of_not_mem hc closed
  have rest : (b ++ ']' :: ' ' :: s).dropWhile (· != ']') = ']' :: ' ' :: s :=
    dropWhile_append_stop inside (by rintro _ ⟨⟩; decide)
  unfold skipBounds
  simp only [rest]
  rw [List.dropWhile_cons_of_pos (by decide), dropWhile_eq_self stop]

theorem skipBounds_word (h : ∀ c ∈ s.head?, isWordChar c = true) : skipBounds s = s := by
  unfold skipBounds
  split
  · exact absurd (h '[' rfl) (by decide)
  · rfl

theorem head?_boundsText (written : d.WellFormed) (r : Text) :
    ∀ c ∈ (d.boundsText ++ (d.name ++ r)).head?, isBlank c = false := by
  obtain ⟨nonempty, word⟩ := isWordChar_of_identifier written.identifier
  unfold Declaration.boundsText
  cases d.bounds with
  | none => exact fun c hc => not_blank_of_word (head?_word nonempty word r c hc)
  | some b =>
    rintro _ ⟨⟩
    decide

theorem head?_typeText (written : d.WellFormed) (r : Text) :
    ∀ c ∈ (d.typeText ++ (d.boundsText ++ (d.name ++ r))).head?, isBlank c = false := by
  unfold Declaration.typeText
  cases type : d.type with
  | none => exact head?_boundsText written r
  | some t =>
    obtain ⟨nonempty, word⟩ := isWordChar_of_typeWord (written.type t type)
    obtain ⟨x, t, rfl⟩ := List.exists_cons_of_ne_nil nonempty
    rintro _ ⟨⟩
    exact not_blank_of_word (word x List.mem_cons_self)

/-- The name behind the bounds, if there are any. -/
theorem declaredName?_bounds (written : d.WellFormed) (n : Nat) (r : Text) :
    declaredName? (n + 1) (d.boundsText ++ (d.name ++ ' ' :: '=' :: r)) = some (d.name, r) := by
  obtain ⟨nonempty, word⟩ := isWordChar_of_identifier written.identifier
  have start := head?_word nonempty word (' ' :: '=' :: r)
  have name := named?_name written.identifier r
  unfold Declaration.boundsText
  cases bounds : d.bounds with
  | none =>
    have plain : typeWord? (d.name ++ ' ' :: '=' :: r) = none := by
      rw [typeWord?_append nonempty word (by rintro _ ⟨⟩; decide)]
      simp [written.noType]
    show declaredName? (n + 1) (d.name ++ ' ' :: '=' :: r) = _
    rw [declaredName?, plain]
    simp only
    rw [skipBounds_word start, name]
  | some b =>
    have text : "[" ++ b ++ "] " ++ (d.name ++ ' ' :: '=' :: r) =
        '[' :: (b ++ ']' :: ' ' :: (d.name ++ ' ' :: '=' :: r)) := by simp
    show declaredName? (n + 1) ("[" ++ b ++ "] " ++ (d.name ++ ' ' :: '=' :: r)) = _
    rw [text, declaredName?]
    have plain : typeWord? ('[' :: (b ++ ']' :: ' ' :: (d.name ++ ' ' :: '=' :: r))) = none := rfl
    rw [plain]
    simp only
    rw [skipBounds_bounds (written.bounds b bounds).1 fun c hc => not_blank_of_word (start c hc),
      name]

/-- The name behind the type, if there is one. -/
theorem declaredName?_type (written : d.WellFormed) (n : Nat) (r : Text) :
    declaredName? (n + 2) (d.typeText ++ (d.boundsText ++ (d.name ++ ' ' :: '=' :: r))) =
      some (d.name, r) := by
  have later (n : Nat) := declaredName?_bounds written n r
  unfold Declaration.typeText
  cases type : d.type with
  | none => exact later (n + 1)
  | some t =>
    obtain ⟨nonempty, word⟩ := isWordChar_of_typeWord (written.type t type)
    have text (s : Text) : t ++ " " ++ s = t ++ ' ' :: s := by simp
    have known : typeWords.contains t = true := by simpa using written.type t type
    show declaredName? (n + 2) (t ++ " " ++ (d.boundsText ++ (d.name ++ ' ' :: '=' :: r))) = _
    rw [text, declaredName?, typeWord?_append nonempty word (head?_boundsText written _),
      if_pos known]
    simp only [later, Option.some_or]

/-- The default up to its first comma. -/
def Declaration.shown (d : Declaration) : Text := d.default.takeWhile (· != ',')

/-- What follows the first comma of the default, with the comma. -/
def Declaration.hidden (d : Declaration) : Text := d.default.dropWhile (· != ',')

theorem shown_append_hidden (d : Declaration) : d.shown ++ d.hidden = d.default :=
  List.takeWhile_append_dropWhile

/-- A default neither starts with a comma nor with a blank. -/
theorem head?_shown (written : d.WellFormed) :
    d.shown ≠ [] ∧ ∀ c ∈ d.shown.head?, isBlank c = false := by
  obtain ⟨c, s, shape⟩ := List.exists_cons_of_ne_nil written.nonempty
  have bare := trim_eq_self_iff.mp written.trimmed
  have closed := written.nested
  rw [shape] at bare closed
  have comma : (c != ',') = true := by
    by_contra same
    obtain rfl : c = ',' := by simpa using same
    cases closed
  unfold Declaration.shown
  rw [shape, List.takeWhile_cons_of_pos (p := (· != ',')) comma]
  exact ⟨List.cons_ne_nil _ _, bare.1⟩

/-- A value begins with the default and ends where it is to end. -/
theorem value?_append (written : d.WellFormed) {value rest : Text} (front : d.shown <+: value)
    (run : ∀ c ∈ value, endsValue c = false) (stop : ∀ c ∈ rest.head?, endsValue c = true) :
    value? (' ' :: (value ++ rest)) = some (value, rest) := by
  have proceeds : ∀ c ∈ value, (!endsValue c) = true := fun c hc => by simp [run c hc]
  have halts : ∀ c ∈ rest.head?, (!endsValue c) = false := fun c hc => by simp [stop c hc]
  obtain ⟨nonempty, first⟩ := head?_shown written
  obtain ⟨more, rfl⟩ := front
  have bare : ∀ c ∈ (d.shown ++ more ++ rest).head?, isBlank c = false := by
    obtain ⟨c, s, shape⟩ := List.exists_cons_of_ne_nil nonempty
    rw [shape] at first ⊢
    exact first
  unfold value?
  rw [List.dropWhile_cons_of_pos (by decide), dropWhile_eq_self bare]
  simp only [takeWhile_append_stop proceeds halts, dropWhile_append_stop proceeds halts]
  split
  · rename_i empty
    exact absurd (List.append_eq_nil_iff.mp empty).1 nonempty
  · rfl

theorem shown_run (written : d.WellFormed) : ∀ c ∈ d.shown, endsValue c = false := by
  intro c hc
  have inside : c ∈ d.default := (List.takeWhile_prefix _).subset hc
  have comma : c ≠ ',' := by simpa using List.mem_takeWhile_imp hc
  have line : c ≠ '\n' := ne_of_mem_of_not_mem inside written.line
  have statement : c ≠ ';' := ne_of_mem_of_not_mem inside written.statement
  simp [endsValue, comma, line, statement]

theorem front_eq (d : Declaration) : d.front = "parameter" ++
    (' ' :: (d.typeText ++ (d.boundsText ++ (d.name ++ [' ', '=', ' '])))) := by
  unfold Declaration.front
  rw [show ("parameter " : Text) = "parameter" ++ [' '] from by decide]
  simp

/-- A declaration is found where it stands, with what is there up to the end of a value. -/
theorem findFrom_declaration (written : d.WellFormed) (outside : prev.any isWordChar = false)
    {r value rest : Text} (found : value? (' ' :: (d.default ++ r)) = some (value, rest))
    (cut : d.default ++ r = value ++ rest) :
    findFrom declaration? prev (d.text ++ r) = (d.name, value) ::
      findFrom declaration? ((d.front ++ value).getLast?.or prev) rest := by
  have text : d.text ++ r = d.front ++ value ++ rest := by
    rw [List.append_assoc, ← cut, Declaration.text, List.append_assoc]
  have shape : d.front ++ value ++ rest = "parameter" ++ (' ' :: (d.typeText ++ (d.boundsText ++
      (d.name ++ ' ' :: '=' :: ' ' :: (d.default ++ r))))) := by
    rw [List.append_assoc, ← cut, front_eq]
    simp only [List.append_assoc, List.cons_append, List.nil_append]
  have nonempty : d.front ++ value ≠ [] := by
    intro empty
    rw [front_eq, List.append_assoc] at empty
    exact List.cons_ne_nil _ _ (List.append_eq_nil_iff.mp empty).2
  have here : declaration? prev (d.front ++ value ++ rest) = some ((d.name, value), rest) := by
    have long : 2 ≤ (d.front ++ value ++ rest).length := by
      rw [shape]
      simp only [List.length_append, List.length_cons]
      omega
    obtain ⟨n, fuel⟩ := Nat.exists_eq_add_of_le' long
    unfold declaration?
    rw [if_neg (by simp [outside]), fuel, shape, stripStart?_append]
    simp only [Option.bind_eq_bind, Option.bind_some, skipBlanks?_space (head?_typeText written _),
      declaredName?_type written, found]
    rfl
  rw [text]
  exact findFrom_match nonempty here

/-! ### What is left of the defaults -/

theorem hidden_cases (d : Declaration) :
    (d.hidden = [] ∧ d.shown = d.default) ∨ ∃ t, d.hidden = ',' :: t := by
  cases h : d.hidden with
  | nil =>
    have whole := shown_append_hidden d
    rw [h, List.append_nil] at whole
    exact .inl ⟨rfl, whole⟩
  | cons c t =>
    have first := head?_dropWhile (p := (· != ',')) d.default c (by
      show d.hidden.head? = some c
      rw [h]
      rfl)
    obtain rfl : c = ',' := by simpa using first
    exact .inr ⟨t, rfl⟩

/-- What a comma hides of a default has no declaration. -/
theorem findFrom_hidden (written : d.WellFormed) (hidden : d.hidden = ',' :: t) {c : Char}
    (sep : isWordChar c = false) :
    findFrom declaration? prev (d.hidden ++ c :: s) = findFrom declaration? (some c) s := by
  have absent : ("parameter" : Text) ∉ sourceWords t := by
    intro mem
    refine written.single ?_
    rw [← shown_append_hidden d, hidden, sourceWords_append_sep (by decide)]
    exact List.mem_append_right _ mem
  rw [hidden, List.cons_append, findFrom_sep (by decide),
    findFrom_wordless absent (by rintro _ ⟨⟩; exact sep), findFrom_sep sep]

/-- Where a value ends behind a default or inside of it, the default is found up to its first comma.
What the comma hides is still to be read. -/
theorem findFrom_shown (written : d.WellFormed) (outside : prev.any isWordChar = false)
    (stop : ∀ c ∈ (d.hidden ++ s).head?, endsValue c = true) :
    findFrom declaration? prev (d.text ++ s) = (d.name, d.shown) ::
      findFrom declaration? ((d.front ++ d.shown).getLast?.or prev) (d.hidden ++ s) := by
  have cut : d.default ++ s = d.shown ++ (d.hidden ++ s) := by
    rw [← List.append_assoc, shown_append_hidden]
  have found := value?_append written (List.prefix_refl _) (shown_run written) stop
  rw [← cut] at found
  exact findFrom_declaration written outside found cut

/-- No bracket of what is found of a default closes one that stands before it. -/
theorem balanced_shown (written : d.WellFormed) : balanced 0 d.shown = d.shown := by
  refine balanced_prefix (b := d.hidden) ?_
  rw [shown_append_hidden]
  exact written.nested

/-- Before another declaration a default is found up to its first comma. -/
theorem findFrom_text (written : d.WellFormed) (outside : prev.any isWordChar = false) (s : Text) :
    findFrom declaration? prev (d.text ++ ',' :: s) =
      (d.name, d.shown) :: findFrom declaration? (some ',') s := by
  rcases hidden_cases d with ⟨none, -⟩ | ⟨t, hidden⟩
  · rw [findFrom_shown written outside (by rw [none]; rintro _ ⟨⟩; decide), none,
      List.nil_append, findFrom_sep (by decide)]
  · rw [findFrom_shown written outside (by rw [hidden]; rintro _ ⟨⟩; decide),
      findFrom_hidden written hidden (by decide)]

/-- Before the end of the list the value goes on, and its brackets end it. -/
theorem findFrom_last (written : d.WellFormed) (outside : prev.any isWordChar = false)
    (none : findFrom declaration? (some '(') s = []) :
    ∃ value, findFrom declaration? prev (d.text ++ ')' :: ' ' :: '(' :: s) = [(d.name, value)] ∧
      balanced 0 value = d.shown := by
  rcases hidden_cases d with ⟨-, whole⟩ | ⟨t, hidden⟩
  -- No character of the bracket ends the value: it goes on into what follows the list.
  · let more : Text := s.takeWhile fun c => !endsValue c
    let rest : Text := s.dropWhile fun c => !endsValue c
    have split : more ++ rest = s := List.takeWhile_append_dropWhile
    have cut : d.default ++ ')' :: ' ' :: '(' :: s =
        (d.default ++ ')' :: ' ' :: '(' :: more) ++ rest := by
      rw [List.append_assoc, ← split]
      rfl
    have run : ∀ c ∈ d.default ++ ')' :: ' ' :: '(' :: more, endsValue c = false := by
      have own := shown_run written
      rw [whole] at own
      have later : ∀ c ∈ more, endsValue c = false := fun c hc => by
        simpa using List.mem_takeWhile_imp hc
      refine List.forall_mem_append.mpr ⟨own, ?_⟩
      exact List.forall_mem_cons.mpr ⟨by decide, List.forall_mem_cons.mpr ⟨by decide,
        List.forall_mem_cons.mpr ⟨by decide, later⟩⟩⟩
    have stop : ∀ c ∈ rest.head?, endsValue c = true := fun c hc => by
      simpa using head?_dropWhile s c hc
    have front : d.shown <+: d.default ++ ')' :: ' ' :: '(' :: more := by
      rw [whole]
      exact List.prefix_append _ _
    have found := value?_append written front run stop
    rw [← cut] at found
    refine ⟨d.default ++ ')' :: ' ' :: '(' :: more, ?_, ?_⟩
    · rw [findFrom_declaration written outside found cut, last_append, last_append, last_cons,
        last_cons, last_cons]
      exact congrArg _ (findFrom_append_eq_nil (by rw [split]; exact none))
    · rw [balanced_append written.nested, whole]
      exact List.append_nil _
  · refine ⟨d.shown, ?_, balanced_shown written⟩
    rw [findFrom_shown written outside (by rw [hidden]; rintro _ ⟨⟩; decide),
      findFrom_hidden written hidden (by decide), findFrom_sep (by decide),
      findFrom_sep (by decide), none]

theorem trim_shown (written : d.WellFormed) : trim d.shown = trimEnd d.shown := by
  show trimEnd (d.shown.dropWhile isBlank) = trimEnd d.shown
  rw [dropWhile_eq_self (head?_shown written).2]

theorem trimEnd_shown_iff (written : d.WellFormed) :
    trimEnd d.shown = d.default ↔ ',' ∉ d.default := by
  constructor
  · intro same comma
    rw [← same] at comma
    have inside : ',' ∈ d.shown := (prefix_trimEndBy d.shown).subset comma
    simpa using List.mem_takeWhile_imp inside
  · intro absent
    have whole : d.shown = d.default := by
      rcases hidden_cases d with ⟨-, whole⟩ | ⟨t, hidden⟩
      · exact whole
      · refine absurd ?_ absent
        rw [← shown_append_hidden d, hidden]
        simp
    rw [whole]
    exact trimEndBy_eq_self (trim_eq_self_iff.mp written.trimmed).2

end Gateware.Verilog
