import Gateware.Proofs.Text.Literal
import Gateware.Proofs.Text.Spacing
import Gateware.Verilog

/-!
# Comments up to the end of a line

Comments are removed in two passes over the whole text, those between marks first. So a line
comment is not yet gone when marks inside of it are paired with marks behind it. `Stripped` says
what the first pass leaves of a text and whether a comment stays open at its end, and `silent_iff`
that a line comment never matters exactly when nothing stays open in it and it is still a line
comment then.
-/

namespace Gateware.Verilog

open Text

variable {a b c r s t u body : Text} {x y : Char} {stays : Bool}

/-! ### Removing what a matcher finds -/

theorem remove_append {m : Text → Option Text}
    (miss : ∀ u, u ≠ [] → u <:+ b → m (u ++ s) = none) : remove m (b ++ s) = b ++ remove m s :=
  substitute_append (m := fun t => (m t).map fun r => ([], r)) fun u nonempty place => by
    rw [miss u nonempty place, Option.map_none]

theorem remove_cons {m : Text → Option Text} {x : Char} (miss : m (x :: s) = none) :
    remove m (x :: s) = x :: remove m s := by
  refine remove_append (b := [x]) fun u nonempty place => ?_
  rcases List.suffix_cons_iff.mp place with rfl | none
  · exact miss
  · exact absurd (List.suffix_nil.mp none) nonempty

theorem remove_match {m : Text → Option Text}
    (consumes : ∀ {s r}, m s = some r → ∃ taken, taken ≠ [] ∧ s = taken ++ r)
    (found : m s = some r) : remove m s = remove m r := by
  have consumes' : Consumes fun t => (m t).map fun r => (([] : Text), r) := by
    intro s t r h
    obtain ⟨r', found, same⟩ := Option.map_eq_some_iff.mp h
    cases same
    exact consumes found
  have first := substitute_first consumes' (b := []) (s := s) (t := []) (r := r)
    (fun u nonempty place => absurd (List.suffix_nil.mp place) nonempty)
    (by simp only [found, Option.map_some])
  exact first

/-- A mark of two characters stands neither in a text nor across its end. -/
theorem not_prefix_of_suffix (absent : ¬ [x, y] <:+: a)
    (seam : a.getLast? = some x → s.head? ≠ some y) :
    ∀ u, u ≠ [] → u <:+ a → ¬ [x, y] <+: u ++ s := by
  rintro u nonempty ⟨front, rfl⟩ here
  match u with
  | [] => exact nonempty rfl
  | [d] =>
    obtain ⟨rfl, next⟩ := List.cons_prefix_cons.mp here
    obtain ⟨rest, rfl⟩ := next
    exact seam (by simp) rfl
  | d :: e :: u =>
    have inside : [x, y] <+: d :: e :: u := by
      obtain ⟨rfl, next⟩ := List.cons_prefix_cons.mp here
      obtain ⟨rfl, -⟩ := List.cons_prefix_cons.mp next
      exact ⟨u, rfl⟩
    exact absent (inside.isInfix.trans (List.suffix_append front _).isInfix)

/-! ### Comments between marks -/

theorem blockComment?_eq_none (h : ¬ ['/', '*'] <+: s) : blockComment? s = none := by
  have miss : stripStart? ['/', '*'] s = none := stripStart?_eq_none_iff.mpr h
  exact congrArg (Option.bind · _) miss

theorem blockComment?_closed (free : ¬ ['*', '/'] <:+: body) (s : Text) :
    blockComment? ('/' :: '*' :: (body ++ '*' :: '/' :: s)) = some s := by
  have closes := cut?_append_first (q := ['*']) (z := '/') (by decide) free s
  exact congrArg (Option.map Prod.snd) closes

theorem blockComment?_consumes (h : blockComment? s = some r) :
    ∃ taken, taken ≠ [] ∧ s = taken ++ r := by
  obtain ⟨inner, opens, h⟩ := Option.bind_eq_some_iff.mp h
  obtain ⟨⟨body, rest⟩, closes, same⟩ := Option.map_eq_some_iff.mp h
  obtain rfl : rest = r := same
  rw [stripStart?_eq_some_iff.mp opens, cut?_eq_some closes, ← List.append_assoc]
  exact ⟨_, List.append_ne_nil_of_left_ne_nil (by decide) _, rfl⟩

def removeBlocks (s : Text) : Text := remove blockComment? s

theorem removeBlocks_comment (free : ¬ ['*', '/'] <:+: body) (s : Text) :
    removeBlocks ('/' :: '*' :: (body ++ '*' :: '/' :: s)) = removeBlocks s :=
  remove_match blockComment?_consumes (blockComment?_closed free s)

theorem removeBlocks_cons (h : ¬ ['/', '*'] <+: x :: s) :
    removeBlocks (x :: s) = x :: removeBlocks s := remove_cons (blockComment?_eq_none h)

theorem removeBlocks_append (absent : ¬ ['/', '*'] <:+: a) (last : a.getLast? ≠ some '/')
    (s : Text) : removeBlocks (a ++ s) = a ++ removeBlocks s :=
  remove_append fun u nonempty place =>
    blockComment?_eq_none (not_prefix_of_suffix absent (fun h => absurd h last) u nonempty place)

/-! ### What stays of a text -/

/-- Without the comments between marks the text reads as the second one. The last argument tells
whether a comment stays open at the end; the second text is then what stands before it. -/
inductive Stripped : Text → Text → Bool → Prop
  | done : Stripped [] [] false
  | opened {body : Text} : ¬ ['*', '/'] <:+: body → Stripped ('/' :: '*' :: body) [] true
  | closed {body s r : Text} {stays : Bool} : ¬ ['*', '/'] <:+: body → Stripped s r stays →
      Stripped ('/' :: '*' :: (body ++ '*' :: '/' :: s)) r stays
  | kept {x : Char} {s r : Text} {stays : Bool} : ¬ ['/', '*'] <+: x :: s → Stripped s r stays →
      Stripped (x :: s) (x :: r) stays

/-- A text with a mark in it is cut at the first one. -/
theorem exists_first_closing (h : ['*', '/'] <:+: s) :
    ∃ body t, s = body ++ '*' :: '/' :: t ∧ ¬ ['*', '/'] <:+: body := by
  induction s with
  | nil => exact absurd (List.infix_nil.mp h) (by decide)
  | cons x s ih =>
    by_cases here : ['*', '/'] <+: x :: s
    · obtain ⟨t, shape⟩ := here
      exact ⟨[], t, shape.symm, by decide⟩
    · obtain ⟨body, t, rfl, free⟩ := ih ((List.infix_cons_iff.mp h).resolve_left here)
      refine ⟨x :: body, t, rfl, fun inside => ?_⟩
      rcases List.infix_cons_iff.mp inside with front | later
      · exact here (front.trans (List.prefix_append (x :: body) _))
      · exact free later

theorem exists_stripped (s : Text) : ∃ r stays, Stripped s r stays := by
  induction h : s.length using Nat.strongRecOn generalizing s with
  | _ n ih =>
    by_cases opens : ['/', '*'] <+: s
    · obtain ⟨rest, rfl⟩ := opens
      by_cases closes : ['*', '/'] <:+: rest
      · obtain ⟨body, t, rfl, free⟩ := exists_first_closing closes
        obtain ⟨r, stays, stripped⟩ := ih t.length (by simp at h; omega) t rfl
        exact ⟨r, stays, .closed free stripped⟩
      · exact ⟨[], true, .opened closes⟩
    · cases s with
      | nil => exact ⟨[], false, .done⟩
      | cons x s =>
        obtain ⟨r, stays, stripped⟩ := ih s.length (by simp at h; omega) s rfl
        exact ⟨x :: r, stays, .kept opens stripped⟩

/-- A text in which no comment opens stays as it is. -/
theorem Stripped.append (absent : ¬ ['/', '*'] <:+: a)
    (seam : a.getLast? = some '/' → s.head? ≠ some '*') (h : Stripped s r stays) :
    Stripped (a ++ s) (a ++ r) stays := by
  have miss := not_prefix_of_suffix absent seam
  clear absent seam
  induction a with
  | nil => exact h
  | cons x a ih =>
    exact .kept (miss (x :: a) (List.cons_ne_nil x a) (List.suffix_refl _))
      (ih fun u nonempty place => miss u nonempty (place.trans (List.suffix_cons x a)))

theorem Stripped.subset (h : Stripped s r stays) : r ⊆ s := by
  induction h with
  | done => exact List.Subset.refl _
  | opened => exact List.nil_subset _
  | @closed body s r stays free stripped ih =>
    intro x hx
    have inside := ih hx
    simp [inside]
  | kept => exact List.cons_subset_cons _ (by assumption)

/-- The end of a line separates marks before it from marks behind it. -/
theorem not_prefix_line (h : ¬ ['/', '*'] <+: x :: s) (t : Text) :
    ¬ ['/', '*'] <+: x :: (s ++ '\n' :: t) := by
  have same : ['/', '*'] <+: x :: s ++ '\n' :: t ↔ ['/', '*'] <+: x :: s :=
    prefix_append_cons_iff (by decide)
  rwa [← List.cons_append, same]

theorem Stripped.removeBlocks_line (h : Stripped s r false) (t : Text) :
    removeBlocks (s ++ '\n' :: t) = r ++ '\n' :: removeBlocks t := by
  generalize flag : false = stays at h
  induction h with
  | done => exact removeBlocks_cons (by simp)
  | opened => cases flag
  | @closed body s r stays free stripped ih =>
    have shape : '/' :: '*' :: (body ++ '*' :: '/' :: s) ++ '\n' :: t =
        '/' :: '*' :: (body ++ '*' :: '/' :: (s ++ '\n' :: t)) := by simp
    rw [shape, removeBlocks_comment free, ih flag]
  | kept miss stripped ih =>
    rw [List.cons_append, removeBlocks_cons (not_prefix_line miss t), ih flag, List.cons_append]

/-- A comment that stays open ends at the first mark behind. -/
theorem Stripped.removeBlocks_open (h : Stripped s r true) (free : ¬ ['*', '/'] <:+: u) (t : Text) :
    removeBlocks (s ++ '\n' :: (u ++ '*' :: '/' :: t)) = r ++ removeBlocks t := by
  generalize flag : true = stays at h
  induction h with
  | done => cases flag
  | @opened body inside =>
    have shape : '/' :: '*' :: body ++ '\n' :: (u ++ '*' :: '/' :: t) =
        '/' :: '*' :: ((body ++ '\n' :: u) ++ '*' :: '/' :: t) := by simp
    have whole : ¬ ['*', '/'] <:+: body ++ '\n' :: u := by
      rw [infix_append_cons_iff (by decide) (by decide)]
      exact not_or.mpr ⟨inside, free⟩
    rw [shape, removeBlocks_comment whole, List.nil_append]
  | @closed body s r stays inside stripped ih =>
    have shape : '/' :: '*' :: (body ++ '*' :: '/' :: s) ++ '\n' :: (u ++ '*' :: '/' :: t) =
        '/' :: '*' :: (body ++ '*' :: '/' :: (s ++ '\n' :: (u ++ '*' :: '/' :: t))) := by simp
    rw [shape, removeBlocks_comment inside, ih flag]
  | kept miss stripped ih =>
    rw [List.cons_append, removeBlocks_cons (not_prefix_line miss _), ih flag, List.cons_append]

/-! ### Comments up to the end of a line -/

theorem lineComment?_eq_none (h : ¬ ['/', '/'] <+: s) : lineComment? s = none := by
  have miss : stripStart? ['/', '/'] s = none := stripStart?_eq_none_iff.mpr h
  exact congrArg (Option.map _) miss

theorem lineComment?_line (line : '\n' ∉ c) (t : Text) :
    lineComment? ('/' :: '/' :: (c ++ '\n' :: t)) = some ('\n' :: t) := by
  have rest : (c ++ '\n' :: t).dropWhile (· != '\n') = '\n' :: t := by
    have run : ∀ x ∈ c, (x != '\n') = true := fun x hx => by
      simpa using ne_of_mem_of_not_mem hx line
    rw [List.dropWhile_append_of_pos run]
    rfl
  exact congrArg some rest

theorem lineComment?_consumes (h : lineComment? s = some r) :
    ∃ taken, taken ≠ [] ∧ s = taken ++ r := by
  obtain ⟨rest, opens, rfl⟩ := Option.map_eq_some_iff.mp h
  refine ⟨"//" ++ rest.takeWhile (· != '\n'), List.append_ne_nil_of_left_ne_nil (by decide) _, ?_⟩
  rw [List.append_assoc, List.takeWhile_append_dropWhile]
  exact stripStart?_eq_some_iff.mp opens

def removeLines (s : Text) : Text := remove lineComment? s

theorem removeComments_eq (s : Text) : removeComments s = removeLines (removeBlocks s) := rfl

theorem removeLines_line (line : '\n' ∉ c) (t : Text) :
    removeLines ('/' :: '/' :: (c ++ '\n' :: t)) = '\n' :: removeLines t := by
  have gone := remove_match lineComment?_consumes (lineComment?_line line t)
  have stays : remove lineComment? ('\n' :: t) = '\n' :: remove lineComment? t :=
    remove_cons (lineComment?_eq_none (by simp))
  exact gone.trans stays

theorem removeLines_append (absent : ¬ ['/', '/'] <:+: a)
    (seam : a.getLast? = some '/' → s.head? ≠ some '/') :
    removeLines (a ++ s) = a ++ removeLines s :=
  remove_append fun u nonempty place =>
    lineComment?_eq_none (not_prefix_of_suffix absent seam u nonempty place)

/-! ### Silent comments -/

/-- A text in which no comment or quotation begins, and at whose end none can begin. -/
structure PlainCode (a : Text) : Prop where
  no_quote : '"' ∉ a
  no_block : ¬ ['/', '*'] <:+: a
  no_line : ¬ ['/', '/'] <:+: a
  no_slash : a.getLast? ≠ some '/'

theorem plainCode_iff : ('"' ∉ a ∧ includes "/*" a = false ∧ includes "//" a = false ∧
    a.getLast? ≠ some '/') ↔ PlainCode a := by
  simp only [← Bool.not_eq_true, includes_iff]
  exact ⟨fun ⟨a, b, c, d⟩ => ⟨a, b, c, d⟩, fun ⟨a, b, c, d⟩ => ⟨a, b, c, d⟩⟩

instance (a : Text) : Decidable (PlainCode a) := decidable_of_iff _ plainCode_iff

/-- The line comment with this text never changes which parameters are found. -/
def Silent (c : Text) : Prop :=
  ∀ a b, PlainCode a → parameters (a ++ "//" ++ c ++ "\n" ++ b) = parameters (a ++ "\n" ++ b)

theorem parameters_congr (h : removeComments s = removeComments t) :
    parameters s = parameters t := by
  unfold parameters
  rw [h]

theorem commented_eq (a c b : Text) :
    a ++ "//" ++ c ++ "\n" ++ b = a ++ ('/' :: '/' :: c ++ '\n' :: b) := by
  simp

theorem removeComments_line (plain : PlainCode a) (line : '\n' ∉ c)
    (stripped : Stripped ('/' :: '/' :: c) ('/' :: '/' :: r) false) (b : Text) :
    removeComments (a ++ ('/' :: '/' :: c ++ '\n' :: b)) = removeComments (a ++ '\n' :: b) := by
  have rest : '\n' ∉ r := fun inside => by
    have := stripped.subset (List.mem_cons_of_mem _ (List.mem_cons_of_mem _ inside))
    simp [line] at this
  have blank : removeBlocks ('\n' :: b) = '\n' :: removeBlocks b := removeBlocks_cons (by simp)
  have stays : removeLines ('\n' :: removeBlocks b) = '\n' :: removeLines (removeBlocks b) :=
    remove_cons (lineComment?_eq_none (by simp))
  have skip (t : Text) : removeLines (a ++ t) = a ++ removeLines t :=
    removeLines_append plain.no_line fun last => absurd last plain.no_slash
  rw [removeComments_eq, removeComments_eq, removeBlocks_append plain.no_block plain.no_slash,
    removeBlocks_append plain.no_block plain.no_slash, stripped.removeBlocks_line, blank, skip,
    skip, List.cons_append, List.cons_append, removeLines_line rest, stays]

theorem silent_of_stripped (line : '\n' ∉ c)
    (stripped : Stripped ('/' :: '/' :: c) ('/' :: '/' :: r) false) : Silent c := by
  intro a b plain
  have same := parameters_congr (removeComments_line plain line stripped b)
  simpa using same

/-! ### Comments that matter -/

/-- A slash behind a value belongs to it. -/
theorem slash_mem_default (t : Text) :
    ∃ found ∈ ((findAll declaration? ("parameter A=1/" ++ t)).map fun (name, value) =>
      (⟨name, trim (balanced 0 value)⟩ : ModuleParameter)).head?, '/' ∈ found.default := by
  let value : Text := '1' :: '/' :: t.takeWhile fun c => !endsValue c
  have found : declaration? none ("parameter A=1/" ++ t) =
      some ((['A'], value), t.dropWhile fun c => !endsValue c) := rfl
  have whole : balanced 0 value = '1' :: '/' :: balanced 0 (t.takeWhile fun c => !endsValue c) :=
    rfl
  have front : trim (balanced 0 value) = trimEnd (balanced 0 value) :=
    congrArg trimEnd (dropWhile_eq_self (by rw [whole]; simp; decide))
  have kept : '/' ∈ solid (trim (balanced 0 value)) := by
    rw [front, solid_trimEnd, whole]
    exact List.mem_filter.mpr ⟨by simp, by decide⟩
  refine ⟨⟨['A'], trim (balanced 0 value)⟩, ?_, (List.mem_filter.mp kept).1⟩
  rw [List.head?_map, head?_findAll (List.append_ne_nil_of_left_ne_nil (by decide) t) found]
  rfl

/-- Where a comment stays open, the text behind the line decides what it hides. -/
theorem not_silent_of_open (stripped : Stripped ('/' :: '/' :: c) r true) : ¬ Silent c := by
  intro silent
  have short := stripped.removeBlocks_open (u := []) (by decide) []
  have long := stripped.removeBlocks_open (u := "parameter A=1\n")
    (not_infix_of_includes (by decide)) []
  have same : parameters ('/' :: '/' :: c ++ '\n' :: "*/") =
      parameters ('/' :: '/' :: c ++ '\n' :: "parameter A=1\n*/") :=
    parameters_congr (congrArg removeLines (short.trans long.symm))
  have before := silent [] "*/" (by decide)
  have after := silent [] "parameter A=1\n*/" (by decide)
  rw [commented_eq] at before after
  exact absurd (before.symm.trans (same.trans after)) (by decide +kernel)

/-- Where the first slash of a line comment stays alone, it joins what stands before it. -/
theorem removeComments_slash (stripped : Stripped ('/' :: '/' :: c) r false)
    (broken : ¬ ['/', '/'] <+: r) :
    ∃ t, removeComments ("parameter A=1" ++ ('/' :: '/' :: c ++ ['\n'])) =
      "parameter A=1/" ++ t := by
  cases stripped with
  | @kept _ _ r _ miss stripped =>
    have seam : ("parameter A=1/" : Text).getLast? = some '/' → (r ++ ['\n']).head? ≠ some '/' := by
      intro _ next
      cases r with
      | nil => exact absurd next (by decide)
      | cons x r =>
        obtain rfl : x = '/' := by simpa using next
        exact broken ⟨r, rfl⟩
    refine ⟨removeLines (r ++ ['\n']), ?_⟩
    have blocks : removeBlocks ("parameter A=1" ++ ('/' :: '/' :: c ++ ['\n'])) =
        "parameter A=1/" ++ (r ++ ['\n']) := by
      rw [removeBlocks_append (not_infix_of_includes (by decide)) (by decide),
        (Stripped.kept miss stripped).removeBlocks_line []]
      rfl
    rw [removeComments_eq, blocks, removeLines_append (not_infix_of_includes (by decide)) seam]

theorem not_silent_of_slash (stripped : Stripped ('/' :: '/' :: c) r false)
    (broken : ¬ ['/', '/'] <+: r) : ¬ Silent c := by
  intro silent
  have plain : PlainCode "parameter A=1" := by decide
  have same := silent "parameter A=1" [] plain
  rw [commented_eq] at same
  obtain ⟨t, residue⟩ := removeComments_slash stripped broken
  obtain ⟨found, first, slash⟩ := slash_mem_default t
  have value : parameters "parameter A=1\n" = [⟨"A", "1"⟩] := by decide +kernel
  have whole := same.trans value
  unfold parameters at whole
  rw [residue] at whole
  rw [whole] at first
  obtain rfl : (⟨"A", "1"⟩ : ModuleParameter) = found := Option.some.inj first
  exact absurd slash (by decide)

/-- A line comment never matters exactly when each comment that opens in it also closes in it and
the two slashes at its start stay. -/
theorem silent_iff (line : '\n' ∉ c) :
    Silent c ↔ ∃ r, Stripped ("//" ++ c) ("//" ++ r) false := by
  constructor
  · intro silent
    obtain ⟨r, stays, stripped⟩ := exists_stripped ("//" ++ c)
    cases stays with
    | true => exact absurd silent (not_silent_of_open stripped)
    | false =>
      by_cases kept : ['/', '/'] <+: r
      · obtain ⟨r, rfl⟩ := kept
        exact ⟨r, stripped⟩
      · exact absurd silent (not_silent_of_slash stripped kept)
  · rintro ⟨r, stripped⟩
    exact silent_of_stripped line stripped

theorem silent_iff_closedComment :
    '\n' ∉ (" was /* parameter */ A = 1," : Text) ∧
      (∃ r, Stripped ("//" ++ " was /* parameter */ A = 1,") ("//" ++ r) false) ∧
      Silent " was /* parameter */ A = 1," := by
  have line : '\n' ∉ (" was /* parameter */ A = 1," : Text) := by decide
  have after : Stripped " A = 1," " A = 1," false :=
    Stripped.done.append (a := " A = 1,") (not_infix_of_includes (by decide)) (by decide)
  have free : ¬ ['*', '/'] <:+: (" parameter " : Text) := not_infix_of_includes (by decide)
  have inner : Stripped "/* parameter */ A = 1," " A = 1," false := .closed free after
  have stripped : Stripped ("//" ++ " was /* parameter */ A = 1,") ("//" ++ " was  A = 1,") false :=
    inner.append (a := "// was ") (not_infix_of_includes (by decide)) (by decide)
  exact ⟨line, ⟨_, stripped⟩, (silent_iff line).mpr ⟨_, stripped⟩⟩

/-- What a line comment opens hides the declaration behind it up to the next comment's end. -/
theorem not_silent_openedComment :
    let a : Text := "module core #(\n  parameter ID = 0, "
    let c : Text := " see /* below"
    let b : Text :=
      "  parameter WIDTH = 8, /* bits */\n  parameter DEPTH = 4) (\n  input clk);\nendmodule\n"
    PlainCode a ∧ '\n' ∉ c ∧
      parameters (a ++ "//" ++ c ++ "\n" ++ b) = [⟨"ID", "0"⟩, ⟨"DEPTH", "4"⟩] ∧
      parameters (a ++ "\n" ++ b) = [⟨"ID", "0"⟩, ⟨"WIDTH", "8"⟩, ⟨"DEPTH", "4"⟩] ∧ ¬ Silent c := by
  intro a c b
  have plain : PlainCode a := by decide
  have hidden : parameters (a ++ "//" ++ c ++ "\n" ++ b) = [⟨"ID", "0"⟩, ⟨"DEPTH", "4"⟩] := by
    decide +kernel
  have shown : parameters (a ++ "\n" ++ b) = [⟨"ID", "0"⟩, ⟨"WIDTH", "8"⟩, ⟨"DEPTH", "4"⟩] := by
    decide +kernel
  refine ⟨plain, by decide, hidden, shown, fun silent => ?_⟩
  have same := silent a b plain
  rw [hidden, shown] at same
  exact absurd same (by decide)

end Gateware.Verilog
