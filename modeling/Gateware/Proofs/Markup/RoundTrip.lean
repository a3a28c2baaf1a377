import Gateware.Proofs.Markup.Tag
import Gateware.Proofs.Text.Literal
import Gateware.Proofs.Text.Trim

/-!
# Documents are read back

What is written of an element is read as that element, whatever follows it (`parse_document`). The
induction is on the element, with the open elements around it: reading one that is complete leaves
it as the last child of the innermost of them (`readOn_write`).
-/

namespace Gateware.Markup

open Text

/-! ### Tokens -/

namespace Token

theorem markup_of_alpha {c : Char} (h : c.isAlpha = true) (s : Text) :
    markup (c :: s) =
      match tagEnd? none (c :: s) with
      | none => .error .unclosedTag
      | some (inside, rest) =>
        match stripEnd? "/" inside with
        | some inside => .ok (.single inside, rest)
        | none => .ok (.start inside, rest) := by
  unfold markup
  split
  · rename_i same
    cases same
    cases h
  · rename_i same
    cases same
    cases h
  · rename_i same
    cases same
    cases h
  · rfl

/-- A tag does not end in the slash that marks one without content. -/
theorem stripEnd?_tagText {e : Element} (name : IsName e.name) :
    stripEnd? "/" e.tagText = none := by
  rw [Option.eq_none_iff_forall_ne_some]
  intro r h
  have slash : e.tagText.getLast? = some '/' := by
    rw [stripEnd?_eq_some_iff.mp h]
    exact List.getLast?_concat
  unfold Element.tagText at slash
  rcases List.eq_nil_or_concat e.attributes with none | ⟨as, a, some⟩
  · rw [none, List.flatMap_nil, List.append_nil] at slash
    exact absurd (name.chars '/' (List.mem_of_getLast? slash)) (by decide)
  · have quote : (e.name ++ e.attributes.flatMap attributeText).getLast? = Option.some '"' := by
      rw [some, List.concat_eq_append, List.flatMap_append, List.flatMap_singleton, ← List.append_assoc]
      unfold attributeText
      rw [← List.append_assoc]
      exact List.getLast?_concat
    rw [quote] at slash
    exact absurd slash (by decide)

/-- A tag that begins with a name opens an element, or is one, as its end tells. -/
theorem next?_tag {e : Element} (name : IsName e.name) {s inside rest : Text}
    (ends : tagEnd? none (e.tagText ++ s) = some (inside, rest)) :
    next? ('<' :: (e.tagText ++ s)) = .ok (some
      (match stripEnd? "/" inside with
        | none => .start inside
        | some inside => .single inside, rest)) := by
  obtain ⟨c, r, shape, alpha⟩ := name.first
  have front : e.tagText ++ s = c :: (r ++ e.attributes.flatMap attributeText ++ s) := by
    simp [Element.tagText, shape]
  unfold next?
  rw [front] at ends ⊢
  simp only [markup_of_alpha alpha, ends]
  cases stripEnd? "/" inside <;> rfl

theorem next?_start {e : Element} (name : IsName e.name) (attributes : ∀ a ∈ e.attributes, IsName a.1)
    (s : Text) : next? ('<' :: (e.tagText ++ '>' :: s)) = .ok (some (.start e.tagText, s)) := by
  have ends : tagEnd? none (e.tagText ++ '>' :: s) = some (e.tagText, s) := by
    rw [tagEnd?_tagText name attributes]
    simp [tagEnd?]
  rw [next?_tag name ends, stripEnd?_tagText name]

theorem next?_single {e : Element} (name : IsName e.name)
    (attributes : ∀ a ∈ e.attributes, IsName a.1) (s : Text) :
    next? ('<' :: (e.tagText ++ '/' :: '>' :: s)) = .ok (some (.single e.tagText, s)) := by
  have ends : tagEnd? none (e.tagText ++ '/' :: '>' :: s) = some (e.tagText ++ ['/'], s) := by
    rw [tagEnd?_tagText name attributes]
    simp [tagEnd?, opensQuote?]
  have slash : stripEnd? "/" (e.tagText ++ ['/']) = some e.tagText := stripEnd?_eq_some_iff.mpr rfl
  rw [next?_tag name ends, slash]

theorem next?_close {name : Text} (h : IsName name) (s : Text) :
    next? ('<' :: '/' :: (name ++ '>' :: s)) = .ok (some (.close name, s)) := by
  have ends : tagEnd? none (name ++ '>' :: s) = some (name, s) := by
    rw [tagEnd?_plain (plain_of_name h)]
    simp [tagEnd?]
  show (markup ('/' :: (name ++ '>' :: s))).map some = _
  unfold markup
  simp only [ends]
  rfl

theorem next?_plain {c : Char} (h : c ≠ '<') (s : Text) :
    next? (c :: s) =
      .ok (some (.text (trimBy isSpace (c :: s.takeWhile (· != '<'))), s.dropWhile (· != '<'))) := by
  unfold next?
  split
  · rename_i same
    cases same
  · rename_i same
    cases same
    exact absurd rfl h
  · rename_i same
    cases same
    rfl

/-- A text without white space is a piece as it stands. -/
theorem next?_text {piece : Text} (nonempty : piece ≠ [])
    (visible : ∀ c ∈ piece, isSpace c = false ∧ c ≠ '<') (s : Text) :
    next? (piece ++ '<' :: s) = .ok (some (.text piece, '<' :: s)) := by
  obtain ⟨c, r, rfl⟩ := List.exists_cons_of_ne_nil nonempty
  have inside : ∀ x ∈ r, (x != '<') = true := fun x hx =>
    bne_iff_ne.mpr (visible x (List.mem_cons_of_mem c hx)).2
  have stop : ∀ x ∈ ('<' :: s).head?, (x != '<') = false := by simp
  have bare : trimBy isSpace (c :: r) = c :: r :=
    trimBy_eq_self (bare_of_forall fun x hx => (visible x hx).1)
  rw [List.cons_append, next?_plain (visible c List.mem_cons_self).2,
    takeWhile_append_stop inside stop, dropWhile_append_stop inside stop, bare]

theorem next?_comment {body : Text} (h : ¬ ['-', '-', '>'] <:+: body) (s : Text) :
    next? ((Prolog.comment body).text ++ s) = .ok (some (.ignored, s)) := by
  have first : cut? "-->" (body ++ ['-', '-', '>'] ++ s) = some (body, s) := by
    rw [List.append_assoc]
    exact cut?_append_first (q := ['-', '-']) (z := '>') (by decide) h s
  show (markup ('!' :: '-' :: '-' :: (body ++ ['-', '-', '>'] ++ s))).map some = _
  unfold markup bang
  simp only [first]
  rfl

theorem next?_declaration {body : Text} (h : ¬ ['?', '>'] <:+: body) (s : Text) :
    next? ((Prolog.declaration body).text ++ s) = .ok (some (.ignored, s)) := by
  have absent : ¬ ['?', '>'] <:+: '?' :: 'x' :: 'm' :: 'l' :: body := by
    simpa [List.infix_cons_iff] using h
  have first : cut? "?>" ('?' :: 'x' :: 'm' :: 'l' :: (body ++ ['?', '>'] ++ s)) =
      some ('?' :: 'x' :: 'm' :: 'l' :: body, s) := by
    rw [List.append_assoc]
    exact cut?_append_first (q := ['?']) (z := '>') (by decide) absent s
  show (markup ('?' :: 'x' :: 'm' :: 'l' :: (body ++ ['?', '>'] ++ s))).map some = _
  unfold markup
  simp only [first]
  rfl

end Token

/-! ### Steps of the reader -/

namespace Element

/-- Reading a token is one step, and what it leaves open is read on with. -/
theorem readOn_next {s rest : Text} {t : Token} (next : Token.next? s = .ok (some (t, rest)))
    (opened : List Element) :
    readOn opened s = (step opened t).bind (Sum.elim (fun opened => readOn opened rest) .ok) := by
  rw [readOn]
  split
  · rename_i same
    rw [next] at same
    cases same
  · rename_i same
    rw [next] at same
    cases same
  · rename_i same
    rw [next] at same
    cases same
    split
    · rename_i failed
      rw [failed]
      rfl
    · rename_i finished
      rw [finished]
      rfl
    · rename_i stepped
      rw [stepped]
      rfl

theorem readOn_step {opened opened' : List Element} {s rest : Text} {t : Token}
    (next : Token.next? s = .ok (some (t, rest))) (stepped : step opened t = .ok (.inl opened')) :
    readOn opened s = readOn opened' rest := by
  rw [readOn_next next, stepped]
  rfl

theorem readOn_root {opened : List Element} {root : Element} {s rest : Text} {t : Token}
    (next : Token.next? s = .ok (some (t, rest))) (stepped : step opened t = .ok (.inr root)) :
    readOn opened s = .ok root := by
  rw [readOn_next next, stepped]
  rfl

/-- Reading once an element is complete: it is the root, or the last child of the innermost open
element. -/
def readAfter (opened : List Element) (e : Element) (rest : Text) : Except Error Element :=
  match opened with
  | [] => .ok e
  | o :: outer => readOn (o.addChild e :: outer) rest

theorem readOn_single {e : Element} (name : IsName e.name)
    (attributes : ∀ a ∈ e.attributes, IsName a.1) (distinct : (e.attributes.map Prod.fst).Nodup)
    (opened : List Element) (rest : Text) :
    readOn opened ('<' :: (e.tagText ++ '/' :: '>' :: rest)) =
      readAfter opened ⟨e.name, e.attributes, [], []⟩ rest := by
  have next := Token.next?_single name attributes rest
  have read := ofTag_tagText name attributes distinct
  cases opened with
  | nil => exact readOn_root next (by rw [step, read]; rfl)
  | cons o outer => exact readOn_step next (by rw [step, read]; rfl)

theorem readOn_start {e : Element} (name : IsName e.name)
    (attributes : ∀ a ∈ e.attributes, IsName a.1) (distinct : (e.attributes.map Prod.fst).Nodup)
    (opened : List Element) (rest : Text) :
    readOn opened ('<' :: (e.tagText ++ '>' :: rest)) =
      readOn (⟨e.name, e.attributes, [], []⟩ :: opened) rest :=
  readOn_step (Token.next?_start name attributes rest)
    (by rw [step, ofTag_tagText name attributes distinct]; rfl)

theorem readOn_close {e : Element} (name : IsName e.name) (opened : List Element) (rest : Text) :
    readOn (e :: opened) ('<' :: '/' :: (e.name ++ '>' :: rest)) = readAfter opened e rest := by
  have next := Token.next?_close name rest
  have own := closedName_name name
  cases opened with
  | nil => exact readOn_root next (by simp only [step, own, if_true])
  | cons o outer => exact readOn_step next (by simp only [step, own, if_true])

/-- A written text is read into the innermost element; markup must follow it. -/
theorem readOn_text (style : CodeStyle) (text : Text) (e : Element) (opened : List Element)
    (rest : Text) :
    readOn (e :: opened) (text.flatMap (textChar style) ++ '<' :: rest) =
      readOn (e.addText text :: opened) ('<' :: rest) := by
  by_cases empty : text.flatMap (textChar style) = []
  · have read := unescape_flatMap (stands_textChar style) text
    rw [empty] at read ⊢
    obtain rfl : [] = text := Except.ok.inj (by rw [← read, unescape, unescapeEnd])
    cases e
    simp only [List.nil_append, addText, List.append_nil]
  · have visible : ∀ c ∈ text.flatMap (textChar style), isSpace c = false ∧ c ≠ '<' := by
      intro c hc
      obtain ⟨x, -, hx⟩ := List.mem_flatMap.mp hc
      exact mem_textChar hx
    refine readOn_step (Token.next?_text empty visible rest) ?_
    rw [step, unescape_flatMap (stands_textChar style)]
    rfl

theorem readOn_children {style : CodeStyle} {children : List Element}
    (read : ∀ c ∈ children, ∀ opened rest,
      readOn opened (c.write style ++ rest) = readAfter opened c rest)
    (e : Element) (opened : List Element) (rest : Text) :
    readOn (e :: opened) (children.flatMap (fun c => c.write style) ++ rest) =
      readOn ({ e with children := e.children ++ children } :: opened) rest := by
  induction children generalizing e with
  | nil =>
    cases e
    simp only [List.flatMap_nil, List.nil_append, List.append_nil]
  | cons c children ih =>
    rw [List.flatMap_cons, List.append_assoc, read c List.mem_cons_self, readAfter,
      ih fun d hd => read d (List.mem_cons_of_mem c hd)]
    simp only [addChild, List.append_assoc, List.singleton_append]

/-! ### The tree -/

/-- What is written of an element begins with markup. -/
theorem exists_markup (style : CodeStyle) (e : Element) (rest : Text) :
    ∃ r, e.write style ++ rest = '<' :: r := by
  rw [write]
  split
  · exact ⟨_, rfl⟩
  · exact ⟨_, rfl⟩

theorem exists_markup_children (style : CodeStyle) (children : List Element) (rest : Text) :
    ∃ r, children.flatMap (fun c => c.write style) ++ '<' :: rest = '<' :: r := by
  cases children with
  | nil => exact ⟨rest, rfl⟩
  | cons c children =>
    rw [List.flatMap_cons, List.append_assoc]
    exact exists_markup style c _

theorem readOn_write (style : CodeStyle) {e : Element} (h : e.Writable) (opened : List Element)
    (rest : Text) : readOn opened (e.write style ++ rest) = readAfter opened e rest := by
  -- Children are read while their parent is open, so the open elements are general.
  induction h generalizing opened rest with
  | @of e name attributes distinct children ih =>
    rw [write]
    split
    · rename_i hollow
      obtain ⟨text, inside⟩ : e.text = [] ∧ e.children = [] := by simpa using hollow
      have whole : e = ⟨e.name, e.attributes, [], []⟩ := by
        cases e
        simp_all
      rw [show '<' :: e.tagText ++ ['/', '>'] ++ rest = '<' :: (e.tagText ++ '/' :: '>' :: rest) by simp,
        readOn_single name attributes distinct, ← whole]
    · obtain ⟨r, content⟩ := exists_markup_children style e.children ('/' :: (e.name ++ '>' :: rest))
      have shape : '<' :: e.tagText ++ '>' :: e.text.flatMap (textChar style) ++
          e.children.flatMap (fun c => c.write style) ++ '<' :: '/' :: e.name ++ ['>'] ++ rest =
          '<' :: (e.tagText ++ '>' :: (e.text.flatMap (textChar style) ++ '<' :: r)) := by
        rw [← content]
        simp
      rw [shape, readOn_start name attributes distinct, readOn_text, ← content,
        readOn_children fun c hc opened rest => ih c hc opened rest]
      have whole : (⟨e.name, e.attributes, [] ++ e.text, [] ++ e.children⟩ : Element) = e := by
        cases e
        rfl
      show readOn (⟨e.name, e.attributes, [] ++ e.text, [] ++ e.children⟩ :: opened) _ = _
      rw [whole]
      exact readOn_close name opened rest

/-! ### Before the root -/

/-- Outside of all elements the reader goes on at the next tag. -/
theorem readOn_dropWhile (s : Text) : readOn [] (s.dropWhile (· != '<')) = readOn [] s := by
  cases s with
  | nil => rfl
  | cons c s =>
    by_cases h : c = '<'
    · rw [List.dropWhile_cons_of_neg (by simp [h])]
    · rw [List.dropWhile_cons_of_pos (by simp [h])]
      exact (readOn_step (Token.next?_plain h s) rfl).symm

theorem readOn_prolog {p : Prolog} (h : p.IsComplete) (rest : Text) :
    readOn [] (p.text ++ rest) = readOn [] rest := by
  cases p with
  | space blanks =>
    have inside : ∀ c ∈ blanks, (c != '<') = true := by
      intro c hc
      rcases eq_of_isSpace (h c hc) with rfl | rfl | rfl | rfl <;> decide
    rw [← readOn_dropWhile, Prolog.text, List.dropWhile_append_of_pos inside, readOn_dropWhile]
  | comment body => exact readOn_step (Token.next?_comment h rest) rfl
  | declaration body => exact readOn_step (Token.next?_declaration h rest) rfl

theorem readOn_prologs {prolog : List Prolog} (h : ∀ p ∈ prolog, p.IsComplete) (rest : Text) :
    readOn [] (prolog.flatMap Prolog.text ++ rest) = readOn [] rest := by
  induction prolog with
  | nil => rfl
  | cons p prolog ih =>
    rw [List.flatMap_cons, List.append_assoc, readOn_prolog (h p List.mem_cons_self),
      ih fun q hq => h q (List.mem_cons_of_mem p hq)]

/-- No document begins with a byte order mark of its own. -/
theorem head?_prolog {prolog : List Prolog} (h : ∀ p ∈ prolog, p.IsComplete) (s : Text) :
    ∀ c ∈ (prolog.flatMap Prolog.text ++ '<' :: s).head?, c ≠ '\ufeff' := by
  induction prolog with
  | nil => simp
  | cons p prolog ih =>
    have later := ih fun q hq => h q (List.mem_cons_of_mem p hq)
    have first := h p List.mem_cons_self
    cases p with
    | comment body => simp [Prolog.text]
    | declaration body => simp [Prolog.text]
    | space blanks =>
      cases blanks with
      | nil => exact later
      | cons c blanks =>
        have space : isSpace c = true := first c List.mem_cons_self
        rcases eq_of_isSpace space with rfl | rfl | rfl | rfl <;> simp [Prolog.text]

theorem parse_write (style : CodeStyle) {e : Element} (h : e.Writable) (rest : Text) :
    parse (e.write style ++ rest) = .ok e := by
  obtain ⟨r, markup⟩ := exists_markup style e rest
  have unmarked : stripStart? "\ufeff" (e.write style ++ rest) = none := by
    rw [markup, stripStart?_eq_none_iff]
    rintro ⟨t, marked⟩
    cases marked
  unfold parse
  rw [unmarked, Option.getD_none, readOn_write style h]
  rfl

/-- What is written of an element is read as that element, after whatever may stand before a root
element and before any text. -/
theorem parse_document (style : CodeStyle) {prolog : List Prolog}
    (complete : ∀ p ∈ prolog, p.IsComplete) {e : Element} (h : e.Writable) (rest : Text) :
    parse (prolog.flatMap Prolog.text ++ e.write style ++ rest) = .ok e := by
  obtain ⟨r, markup⟩ := exists_markup style e rest
  have unmarked : stripStart? "\ufeff" (prolog.flatMap Prolog.text ++ '<' :: r) = none := by
    rw [stripStart?_eq_none_iff]
    rintro ⟨t, marked⟩
    have first := head?_prolog complete r
    rw [← marked] at first
    exact first '\ufeff' rfl rfl
  unfold parse
  rw [List.append_assoc, markup, unmarked, Option.getD_none, ← markup, readOn_prologs complete,
    readOn_write style h]
  rfl

/-- A block with a name and a value, whose text needs references. -/
def block : Element :=
  ⟨"spirit:component", [("xmlns:spirit", "urn:a"), ("note", "\"1 < 2\"")], [], [
    ⟨"spirit:name", [], " a & b\n", []⟩, ⟨"spirit:value", [("spirit:id", "x")], [], []⟩]⟩

def blockProlog : List Prolog :=
  [.declaration " version=\"1.0\"", .space "\n", .comment " a -- block > ", .space "\n"]

theorem parse_document_block :
    (∀ p ∈ blockProlog, p.IsComplete) ∧ block.Writable ∧
      parse (blockProlog.flatMap Prolog.text ++ block.write .decimal ++ "</a> & so on".toList) =
        .ok block := by
  have complete : ∀ p ∈ blockProlog, p.IsComplete := by
    have absent {p s : Text} (h : includes p s = false) : ¬ p <:+: s := by
      rw [← includes_iff, h]
      exact Bool.false_ne_true
    have blanks : ∀ c ∈ "\n".toList, isSpace c = true := List.all_eq_true.mp (by decide)
    simp only [blockProlog, List.forall_mem_cons]
    exact ⟨absent (by decide), blanks, absent (by decide), blanks, nofun⟩
  have leaf {e : Element} (name : IsName e.name) (attributes : ∀ a ∈ e.attributes, IsName a.1)
      (distinct : (e.attributes.map Prod.fst).Nodup) (hollow : e.children = []) : e.Writable :=
    .of name attributes distinct (by rw [hollow]; exact List.forall_mem_nil _)
  have writable : block.Writable := by
    refine .of (by decide) (by decide) (by decide) ?_
    simp only [block, List.forall_mem_cons]
    exact ⟨leaf (by decide) (by decide) (by decide) rfl, leaf (by decide) (by decide) (by decide) rfl,
      List.forall_mem_nil _⟩
  exact ⟨complete, writable, parse_document .decimal complete writable _⟩

end Element

end Gateware.Markup
