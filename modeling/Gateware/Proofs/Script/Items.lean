import Gateware.Proofs.Script.Line
import Gateware.Proofs.Script.Words
import Gateware.Proofs.Text.Literal
import Gateware.Proofs.Text.Trim

/-!
# Items of a list

A list is found by its opening delimiter, its end by counting delimiters, its words by both kinds
of delimiters and by quotes, and of each word one pair of quotes or braces is dropped. A text in
quotes is one word for all of these when it holds no quote and no bracket (`Quotable`), and so is
a text without white space and delimiters when it stands alone (`Simple`). `listItems_exact` says
that items of either kind are read back from the list in which they are written.
-/

namespace Gateware.Script

open Text

variable {w item s r : Text} {ws items : List Text} {c y first last : Char}

/-! ### Words that are written -/

/-- What opens or closes a group or a quotation. -/
def delimiters : List Char := ['"', '[', ']', '{', '}']

/-- A word in which nothing separates, opens or closes. -/
structure Simple (w : Text) : Prop where
  nonempty : w ≠ []
  solid : ∀ c ∈ w, isBlank c = false
  plain : ∀ c ∈ w, c ∉ delimiters

theorem simple_iff :
    (w ≠ [] ∧ w.all (fun c => !isBlank c) = true ∧ w.all (fun c => c ∉ delimiters) = true) ↔
      Simple w := by
  simp only [List.all_eq_true, Bool.not_eq_true', decide_eq_true_eq]
  exact ⟨fun ⟨a, b, c⟩ => ⟨a, b, c⟩, fun ⟨a, b, c⟩ => ⟨a, b, c⟩⟩

-- A bounded quantifier may be decided over every character; `List.all` visits those of the word.
instance (w : Text) : Decidable (Simple w) := decidable_of_iff _ simple_iff

/-- A text that is read back from quotes inside of a bracketed list. -/
structure Quotable (item : Text) : Prop where
  nonempty : item ≠ []
  trimmed : trim item = item
  no_quote : '"' ∉ item
  no_open : '[' ∉ item
  no_close : ']' ∉ item

instance (item : Text) : Decidable (Quotable item) :=
  decidable_of_iff (item ≠ [] ∧ trim item = item ∧ '"' ∉ item ∧ '[' ∉ item ∧ ']' ∉ item)
    ⟨fun ⟨a, b, c, d, e⟩ => ⟨a, b, c, d, e⟩, fun ⟨a, b, c, d, e⟩ => ⟨a, b, c, d, e⟩⟩

/-- The text between quotes. -/
def quote (item : Text) : Text := '"' :: (item ++ ['"'])

theorem Simple.not_mem (h : Simple w) (hc : c ∈ delimiters) : c ∉ w := fun mem => h.plain c mem hc

theorem Nesting.step_of_plain {n : Nesting} (h : c ∉ delimiters) : n.step c = n := by
  simp only [delimiters, List.mem_cons, List.not_mem_nil, or_false, not_or] at h
  unfold step
  simp [h]

theorem Simple.word (h : Simple w) : Word w := by
  have reads : Nesting.Whole {} w ∧ Nesting.after {} w = {} := by
    have solid := h.solid
    have plain := h.plain
    clear h
    induction w with
    | nil => exact ⟨Nesting.whole_nil, rfl⟩
    | cons c w ih =>
      obtain ⟨first, rest⟩ := List.forall_mem_cons.mp solid
      obtain ⟨still, plain⟩ := List.forall_mem_cons.mp plain
      have stays : Nesting.step {} c = {} := Nesting.step_of_plain still
      obtain ⟨whole, closed⟩ := ih rest plain
      refine ⟨Nesting.whole_cons.mpr ⟨first, by rwa [stays]⟩, ?_⟩
      unfold Nesting.after at closed ⊢
      rw [List.foldl_cons, stays, closed]
  exact ⟨h.nonempty, reads.1, reads.2⟩

/-- Between quotes nothing separates, and nothing but the other quote ends the quotation. -/
theorem word_quote (h : '"' ∉ item) : Word (quote item) := by
  have reads : Nesting.Whole ⟨0, true⟩ (item ++ ['"']) ∧
      Nesting.after ⟨0, true⟩ (item ++ ['"']) = {} := by
    induction item with
    | nil => exact ⟨by decide, rfl⟩
    | cons c item ih =>
      obtain ⟨other, rest⟩ := List.ne_and_not_mem_of_not_mem_cons h
      have stays : Nesting.step ⟨0, true⟩ c = ⟨0, true⟩ := by simp [Nesting.step, Ne.symm other]
      obtain ⟨whole, closed⟩ := ih rest
      rw [List.cons_append]
      refine ⟨Nesting.whole_cons.mpr ⟨rfl, by rwa [stays]⟩, ?_⟩
      unfold Nesting.after at closed ⊢
      rw [List.foldl_cons, stays, closed]
  have opens : Nesting.step {} '"' = ⟨0, true⟩ := rfl
  refine ⟨List.cons_ne_nil _ _, Nesting.whole_cons.mpr ⟨rfl, ?_⟩, ?_⟩
  · rw [opens]
    exact reads.1
  · exact reads.2

/-! ### Words between blanks -/

theorem splitWords_cons_blank (blank : isBlank c = true) (s : Text) :
    splitWords (c :: s) = splitWords s := by
  have separated : Nesting.separates {} c = true := blank
  unfold splitWords
  rw [piecesFrom_separated separated]
  rfl

theorem splitWords_eq_nil (blank : ∀ c ∈ s, isBlank c = true) : splitWords s = [] := by
  induction s with
  | nil => rfl
  | cons c s ih =>
    obtain ⟨first, rest⟩ := List.forall_mem_cons.mp blank
    rw [splitWords_cons_blank first, ih rest]

theorem splitWords_words (words : ∀ w ∈ ws, Word w) : splitWords (joinWith " " ws) = ws := by
  refine splitWords_joinWith ?_
  induction ws with
  | nil => exact .nil
  | cons w ws ih =>
    obtain ⟨word, rest⟩ := List.forall_mem_cons.mp words
    exact .cons word (ih rest)

theorem splitWords_joinWith_blank (words : ∀ w ∈ ws, Word w) :
    splitWords (joinWith " " ws ++ [' ']) = ws := by
  induction ws with
  | nil => rfl
  | cons w ws ih =>
    obtain ⟨word, rest⟩ := List.forall_mem_cons.mp words
    cases ws with
    | nil => exact splitWords_append word (by decide) []
    | cons v ws =>
      rw [joinWith_cons_cons, List.append_assoc, List.cons_append,
        splitWords_append word (by decide), ih rest]

/-! ### Quotes and braces around a word -/

theorem unquote_quote (h : Quotable item) : unquote (quote item) = item := by
  have ends : Bare isBlank (quote item) := by
    refine ⟨fun c hc => ?_, fun c hc => ?_⟩
    · obtain rfl : '"' = c := by simpa [quote] using hc
      decide
    · have shape : quote item = ('"' :: item) ++ ['"'] := rfl
      rw [shape, List.getLast?_concat] at hc
      obtain rfl : '"' = c := by simpa using hc
      decide
  have inner : enclosedBy? '"' '"' (quote item) = some item := by
    exact stripEnd?_eq_some_iff (s := item ++ ['"']).mpr rfl
  unfold unquote
  rw [trim_eq_self_iff.mpr ends]
  simp only [inner, h.trimmed]

theorem enclosedBy?_eq_none (h : first ∉ w) : enclosedBy? first last w = none := by
  cases w with
  | nil => rfl
  | cons c w =>
    have other : c ≠ first := (List.ne_of_not_mem_cons h).symm
    exact if_neg (by simpa using other)

theorem unquote_simple (h : Simple w) : unquote w = w := by
  have trimmed : trim w = w := trim_eq_self_iff.mpr (bare_of_forall h.solid)
  have quotes : enclosedBy? '"' '"' w = none := enclosedBy?_eq_none (h.not_mem (by decide))
  have braces : enclosedBy? '{' '}' w = none := enclosedBy?_eq_none (h.not_mem (by decide))
  unfold unquote
  rw [trimmed]
  simp only [quotes, braces]

/-! ### The group that a delimiter opens -/

theorem untilClosed?_append (opens : first ∉ s) (closes : last ∉ s) (ne : first ≠ last) (r : Text) :
    untilClosed? first last 0 (s ++ last :: r) = some s := by
  induction s with
  | nil =>
    rw [List.nil_append, untilClosed?]
    simp [ne.symm]
  | cons c s ih =>
    obtain ⟨other, opens⟩ := List.ne_and_not_mem_of_not_mem_cons opens
    obtain ⟨still, closes⟩ := List.ne_and_not_mem_of_not_mem_cons closes
    rw [List.cons_append, untilClosed?, ih opens closes]
    simp [other.symm, still.symm]

theorem mem_joinWith_space (h : c ∈ joinWith " " ws) : c = ' ' ∨ ∃ w ∈ ws, c ∈ w := by
  induction ws with
  | nil => cases h
  | cons w ws ih =>
    cases ws with
    | nil => exact .inr ⟨w, List.mem_cons_self, h⟩
    | cons v ws =>
      rw [joinWith_cons_cons, List.mem_append, List.mem_cons] at h
      rcases h with here | gap | later
      · exact .inr ⟨w, List.mem_cons_self, here⟩
      · exact .inl gap
      · refine (ih later).imp_right ?_
        rintro ⟨u, hu, inside⟩
        exact ⟨u, List.mem_cons_of_mem w hu, inside⟩

theorem not_mem_joinWith_space (gap : c ≠ ' ') (h : ∀ w ∈ ws, c ∉ w) : c ∉ joinWith " " ws := by
  intro inside
  rcases mem_joinWith_space inside with here | ⟨w, hw, inside⟩
  · exact gap here
  · exact h w hw inside

/-- The word that opens a bracketed list, behind its bracket. -/
def listMark : Text := "[list"

theorem cut?_listMark {p : Text} (before : ¬ listMark <:+: p) (r : Text) :
    cut? listMark (p ++ ' ' :: (listMark ++ r)) = some (p ++ [' '], r) := by
  have shape : listMark = "[lis".toList ++ ['t'] := by decide
  have absent : ¬ "[lis".toList ++ ['t'] <:+: p ++ [' '] := by
    rw [← shape, infix_append_cons_iff (by decide) (by decide), List.infix_nil]
    exact not_or.mpr ⟨before, by decide⟩
  have unique : 't' ∉ "[lis".toList := by decide
  have found := cut?_append_first unique absent r
  rwa [← shape, List.append_assoc] at found

theorem listBody?_bracketed {p body : Text} (before : ¬ listMark <:+: p) (opens : '[' ∉ body)
    (closes : ']' ∉ body) (q : Text) :
    listBody? (p ++ ' ' :: (listMark ++ (body ++ ']' :: q))) = some body := by
  have cut := cut?_listMark before (body ++ ']' :: q)
  unfold listBody?
  unfold listMark at cut ⊢
  rw [cut]
  exact untilClosed?_append opens closes (by decide) q

theorem cut?_listMark_eq_none {p body q : Text} (before : ¬ listMark <:+: p) (inside : '[' ∉ body)
    (behind : ¬ listMark <:+: q) :
    cut? listMark (p ++ ' ' :: ('{' :: body ++ ' ' :: '}' :: q)) = none := by
  rw [← Option.not_isSome_iff_eq_none]
  intro found
  have place := includes_iff.mp found
  rw [infix_append_cons_iff (by decide) (by decide),
    infix_append_cons_iff (by decide) (by decide)] at place
  rcases place with early | within | late
  · exact before early
  · have bracket : '[' ∈ '{' :: body := within.subset (by decide)
    exact inside (List.mem_of_ne_of_mem (by decide) bracket)
  · exact behind (infix_of_infix_append (t := ['}']) (by decide) late)

theorem listBody?_braced {p body q : Text} (before : ¬ listMark <:+: p) (brace : '{' ∉ p)
    (inside : '[' ∉ body) (opens : '{' ∉ body) (closes : '}' ∉ body) (behind : ¬ listMark <:+: q) :
    listBody? (p ++ ' ' :: ('{' :: body ++ ' ' :: '}' :: q)) = some (body ++ [' ']) := by
  have line : p ++ ' ' :: ('{' :: body ++ ' ' :: '}' :: q) =
      (p ++ [' ']) ++ '{' :: (body ++ ' ' :: '}' :: q) := by simp
  have unmarked := cut?_listMark_eq_none before inside behind
  have front : '{' ∉ p ++ [' '] := by simpa using brace
  have opens' : '{' ∉ body ++ [' '] := by simpa using opens
  have closes' : '}' ∉ body ++ [' '] := by simpa using closes
  have whole := untilClosed?_append opens' closes' (by decide) q
  rw [List.append_assoc] at whole
  rw [line] at unmarked ⊢
  unfold listMark at unmarked
  unfold listBody?
  rw [unmarked, cut?_append front]
  exact whole

/-! ### Lists -/

theorem not_mem_framed (ne : c ≠ y) (absent : c ∉ s) : c ∉ y :: (s ++ [y]) := by
  simp [ne, absent]

theorem not_mem_quoted (gap : c ≠ ' ') (mark : c ≠ '"') (absent : ∀ item ∈ items, c ∉ item) :
    c ∉ ' ' :: (joinWith " " (items.map quote) ++ [' ']) :=
  not_mem_framed gap <| not_mem_joinWith_space gap <| List.forall_mem_map.mpr fun item hi =>
    not_mem_framed mark (absent item hi)

theorem filter_map_unquote (write : Text → Text)
    (back : ∀ item ∈ items, unquote (write item) = item)
    (nonempty : ∀ item ∈ items, item ≠ []) :
    ((items.map write).map unquote).filter (fun w => !w.isEmpty) = items := by
  have same : (items.map write).map unquote = items := by
    rw [List.map_map]
    exact (List.map_congr_left back).trans (List.map_id items)
  rw [same]
  exact List.filter_eq_self.mpr fun item hi => by simpa using nonempty item hi

theorem listItems_quoted {p : Text} (before : ¬ listMark <:+: p)
    (quotable : ∀ item ∈ items, Quotable item) (q : Text) :
    listItems (p ++ ' ' :: (listMark ++
      (' ' :: (joinWith " " (items.map quote) ++ [' ']) ++ ']' :: q))) = items := by
  have opens := not_mem_quoted (by decide) (by decide) fun item hi => (quotable item hi).no_open
  have closes := not_mem_quoted (by decide) (by decide) fun item hi => (quotable item hi).no_close
  have words : splitWords (joinWith " " (items.map quote) ++ [' ']) = items.map quote :=
    splitWords_joinWith_blank <|
      List.forall_mem_map.mpr fun item hi => word_quote (quotable item hi).no_quote
  unfold listItems
  rw [listBody?_bracketed before opens closes]
  simp only [splitWords_cons_blank (c := ' ') (by decide), words]
  exact filter_map_unquote quote (fun item hi => unquote_quote (quotable item hi))
    fun item hi => (quotable item hi).nonempty

theorem listItems_braced {p q : Text} (before : ¬ listMark <:+: p) (brace : '{' ∉ p)
    (behind : ¬ listMark <:+: q) (simple : ∀ item ∈ items, Simple item) :
    listItems (p ++ ' ' :: ('{' :: joinWith " " items ++ ' ' :: '}' :: q)) = items := by
  have free {c : Char} (delimiter : c ∈ delimiters) (gap : c ≠ ' ') : c ∉ joinWith " " items :=
    not_mem_joinWith_space gap fun item hi => (simple item hi).not_mem delimiter
  have body := listBody?_braced before brace (free (by decide) (by decide))
    (free (by decide) (by decide)) (free (by decide) (by decide)) behind
  have words : splitWords (joinWith " " items ++ [' ']) = items :=
    splitWords_joinWith_blank fun item hi => (simple item hi).word
  unfold listItems
  rw [body]
  simp only [words]
  have back := filter_map_unquote id (fun item hi => unquote_simple (simple item hi))
    fun item hi => (simple item hi).nonempty
  rwa [List.map_id] at back

/-- Items that are written in quotes in a bracketed list, or as simple words in braces, are read
back in order, whatever stands before and after, as long as no other list is found there. -/
theorem listItems_exact :
    (∀ (p q : Text) (items : List Text), ¬ listMark <:+: p → (∀ item ∈ items, Quotable item) →
      listItems (p ++ " [list " ++ joinWith " " (items.map quote) ++ " ]" ++ q) = items) ∧
    ∀ (p q : Text) (items : List Text), ¬ listMark <:+: p → '{' ∉ p → ¬ listMark <:+: q →
      (∀ item ∈ items, Simple item) →
      listItems (p ++ " \x7b" ++ joinWith " " items ++ " \x7d" ++ q) = items := by
  constructor
  · intro p q items before quotable
    have line : p ++ " [list " ++ joinWith " " (items.map quote) ++ " ]" ++ q =
        p ++ ' ' :: (listMark ++
          (' ' :: (joinWith " " (items.map quote) ++ [' ']) ++ ']' :: q)) := by
      simp [listMark]
    rw [line]
    exact listItems_quoted before quotable q
  · intro p q items before brace behind simple
    have line : p ++ " \x7b" ++ joinWith " " items ++ " \x7d" ++ q =
        p ++ ' ' :: ('{' :: joinWith " " items ++ ' ' :: '}' :: q) := by
      simp
    rw [line]
    exact listItems_braced before brace behind simple

/-- Spaces, variables and braces that do not match stand for themselves in quotes. -/
theorem listItems_exact_fileLists :
    let quoted : List Text := ["a.v", "$ad_hdl_dir/library/b c.v", "\x7dx y\x7b"]
    let simple : List Text := ["c.v", "$dir/d.sv", "#e"]
    (¬ listMark <:+: "ad_ip_files core [lis\x7b" ∧ (∀ item ∈ quoted, Quotable item) ∧
      listItems ("ad_ip_files core [lis\x7b [list " ++
        "\"a.v\" \"$ad_hdl_dir/library/b c.v\" \"\x7dx y\x7b\" ] [list z.v]") = quoted) ∧
    (¬ listMark <:+: "ad_ip_files core" ∧ '{' ∉ "ad_ip_files core".toList ∧
      ¬ listMark <:+: " ] \x7bz.v\x7d" ∧ (∀ item ∈ simple, Simple item) ∧
      listItems "ad_ip_files core \x7bc.v $dir/d.sv #e \x7d ] \x7bz.v\x7d" = simple) := by
  have before : ¬ listMark <:+: "ad_ip_files core [lis\x7b" := not_infix_of_includes (by decide)
  have before' : ¬ listMark <:+: "ad_ip_files core" := not_infix_of_includes (by decide)
  have brace : '{' ∉ "ad_ip_files core".toList := by decide
  have behind : ¬ listMark <:+: " ] \x7bz.v\x7d" := not_infix_of_includes (by decide)
  have quotable : ∀ item ∈ ["a.v", "$ad_hdl_dir/library/b c.v", "\x7dx y\x7b"].map String.toList,
      Quotable item := by decide
  have simple : ∀ item ∈ ["c.v", "$dir/d.sv", "#e"].map String.toList, Simple item := by decide
  exact ⟨⟨before, quotable, listItems_exact.1 _ " [list z.v]" _ before quotable⟩,
    before', brace, behind, simple, listItems_exact.2 _ _ _ before' brace behind simple⟩

end Gateware.Script
