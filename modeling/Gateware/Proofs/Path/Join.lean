import Gateware.Path.Normal
import Gateware.Proofs.Path.Parts
import Mathlib.Data.List.Basic

/-!
# Joined, cut and normal paths

The steps of a joined path are those of the path and of what is joined to it (`steps_join`), a path
without its last name has the parts before it (`parts_parent`), and a normal path has the parts that
its reduction tells (`parts_normalize`).
-/

namespace Gateware

open Text

namespace PathPart

/-- A name that stands for itself in a path. -/
def Plain (name : Text) : Prop := (PathPart.name name).Inner

instance (name : Text) : Decidable (Plain name) :=
  decidable_of_iff (PathPart.inner? name = some (.name name) ∧ Path.separator ∉ name)
    ⟨fun h => ⟨h.1, h.2⟩, fun h => ⟨h.reads, h.whole⟩⟩

theorem Plain.inner? {name : Text} (h : Plain name) : inner? name = some (.name name) := h.reads

theorem Plain.closed {name : Text} (h : Plain name) :
    ∀ c ∈ name, (c == Path.separator) = false := by
  intro c hc
  rw [beq_eq_false_iff_ne]
  rintro rfl
  exact h.whole hc

end PathPart

namespace Path

/-! ### Joining -/

theorem steps_join {p : Path} {x : Text} (h : x.head? ≠ some separator) :
    (p.join x).steps = p.steps ++ steps ⟨x⟩ := by
  unfold join
  rw [if_neg h]
  split
  · rename_i open'
    rcases open' with empty | last
    · simp [steps, empty, pieces, show PathPart.inner? [] = none from rfl]
    · obtain ⟨above, written⟩ := List.getLast?_eq_some_iff.mp last
      unfold steps
      rw [written, List.append_assoc, List.singleton_append, pieces_append_separator,
        pieces_append_separator, List.filterMap_append, List.filterMap_append]
      simp [pieces, show PathPart.inner? [] = none from rfl]
  · unfold steps
    rw [pieces_append_separator, List.filterMap_append]

theorem isAbsolute_join {p : Path} {x : Text} (h : x.head? ≠ some separator) :
    (p.join x).isAbsolute = p.isAbsolute := by
  have relative : (x.head? == some separator) = false := beq_eq_false_iff_ne.mpr h
  unfold join isAbsolute
  rw [if_neg h]
  split
  · cases text : p.text with
    | nil => simpa using h
    | cons a s => rfl
  · rename_i closed
    cases text : p.text with
    | nil => exact absurd (.inl text) closed
    | cons a s => rfl

/-- What begins with a separator replaces the path that it is joined to. -/
theorem isAbsolute_join_root {p : Path} {x : Text} (h : x.head? = some separator) :
    (p.join x).isAbsolute = true := by
  unfold join isAbsolute
  rw [if_pos h, h, beq_self_eq_true]

theorem head?_dropWhile_separator (t : Text) :
    (t.dropWhile (· == '/')).head? ≠ some separator := by
  intro head
  have closed := List.head?_dropWhile_not (· == '/') t
  rw [head] at closed
  cases closed

theorem head?_of_plain {name : Text} (h : PathPart.Plain name) : name.head? ≠ some separator :=
  fun head => h.whole (List.mem_of_mem_head? head)

theorem steps_of_plain {name : Text} (h : PathPart.Plain name) : steps ⟨name⟩ = [.name name] := by
  unfold steps
  rw [pieces_eq_singleton h.closed, List.filterMap_cons_some h.inner?]
  rfl

theorem steps_join_plain {p : Path} {name : Text} (h : PathPart.Plain name) :
    (p.join name).steps = p.steps ++ [.name name] := by
  rw [steps_join (head?_of_plain h), steps_of_plain h]

/-- Parts are read back from the text in which they are joined. -/
theorem steps_joinWith_text {l : List PathPart} (h : ∀ c ∈ l, c.Inner) :
    steps ⟨joinWith [separator] (l.map PathPart.text)⟩ = l := by
  cases l with
  | nil => rfl
  | cons c l =>
    have whole : ∀ w ∈ (c :: l).map PathPart.text, ∀ a ∈ w, (a == separator) = false := by
      intro w hw a ha
      obtain ⟨c', hc', rfl⟩ := List.mem_map.mp hw
      rw [beq_eq_false_iff_ne]
      rintro rfl
      exact (h c' hc').whole ha
    have read := @pieces_joinWith (· == separator) separator (beq_self_eq_true separator)
      ((c :: l).map PathPart.text) (List.cons_ne_nil _ _) whole
    unfold steps
    rw [read, List.filterMap_map]
    exact (List.filterMap_congr fun c' hc' => (h c' hc').reads).trans List.filterMap_some

theorem head?_joinWith_cons {c : PathPart} (h : c.text ≠ []) (l : List PathPart) :
    (joinWith [separator] ((c :: l).map PathPart.text)).head? = c.text.head? := by
  cases text : c.text with
  | nil => exact absurd text h
  | cons a s => cases l <;> simp [joinWith, text]

theorem head?_joinWith_text {l : List PathPart} (h : ∀ c ∈ l, c.Inner) :
    (joinWith [separator] (l.map PathPart.text)).head? ≠ some separator := by
  cases l with
  | nil => nofun
  | cons c l =>
    have first := h c List.mem_cons_self
    rw [head?_joinWith_cons first.text_ne_nil]
    exact fun start => first.whole (List.mem_of_mem_head? start)

theorem map_text_names (names : List Text) :
    (names.map PathPart.name).map PathPart.text = names := by
  rw [List.map_map]
  exact List.map_id names

theorem inner_of_plain {names : List Text} (h : ∀ n ∈ names, PathPart.Plain n) :
    ∀ c ∈ names.map PathPart.name, c.Inner := by
  intro c hc
  obtain ⟨n, hn, rfl⟩ := List.mem_map.mp hc
  exact h n hn

theorem steps_joinWith {names : List Text} (h : ∀ n ∈ names, PathPart.Plain n) :
    steps ⟨joinWith [separator] names⟩ = names.map .name := by
  have read := steps_joinWith_text (inner_of_plain h)
  rwa [map_text_names] at read

theorem head?_joinWith {names : List Text} (h : ∀ n ∈ names, PathPart.Plain n) :
    (joinWith [separator] names).head? ≠ some separator := by
  have head := head?_joinWith_text (inner_of_plain h)
  rwa [map_text_names] at head

/-! ### The path above -/

theorem filterMap_trimPieces (l : List Text) :
    (trimPieces l).filterMap PathPart.inner? = l.filterMap PathPart.inner? := by
  have dropped (l : List Text) :
      (l.dropWhile fun piece => (PathPart.inner? piece).isNone).filterMap PathPart.inner? =
        l.filterMap PathPart.inner? := by
    induction l with
    | nil => rfl
    | cons piece l ih =>
      cases reads : PathPart.inner? piece with
      | none => simp [reads, ih]
      | some c => simp [reads]
  unfold trimPieces
  rw [List.filterMap_reverse, dropped, List.filterMap_reverse, List.reverse_reverse]

/-- The last of the pieces that stay is a part. -/
theorem last_trimPieces {l above : List Text} {last : Text} (h : trimPieces l = above ++ [last]) :
    ∃ c, PathPart.inner? last = some c := by
  unfold trimPieces at h
  have shape : (l.reverse.dropWhile fun piece => (PathPart.inner? piece).isNone) =
      last :: above.reverse := by
    rw [← List.reverse_reverse (List.dropWhile _ _), h, List.reverse_append]
    rfl
  have stays := List.head?_dropWhile_not (fun piece => (PathPart.inner? piece).isNone) l.reverse
  rw [shape] at stays
  exact Option.isSome_iff_exists.mp (by simpa using stays)

theorem mem_of_mem_trimPieces {l : List Text} {w : Text} (h : w ∈ trimPieces l) : w ∈ l := by
  unfold trimPieces at h
  rw [List.mem_reverse] at h
  exact List.mem_reverse.mp ((List.dropWhile_sublist _).subset h)

/-- The parts of a path that is joined from pieces. -/
theorem parts_joinWith {first : Text} {l : List Text} (nonempty : ¬ (first = [] ∧ l = []))
    (whole : ∀ v ∈ first :: l, ∀ c ∈ v, (c == separator) = false) :
    parts ⟨joinWith [separator] (first :: l)⟩ = leading first ++ l.filterMap PathPart.inner? := by
  have back := @pieces_joinWith (· == separator) separator (beq_self_eq_true separator)
    (first :: l) (List.cons_ne_nil first l) whole
  refine parts_of_pieces (fun empty => ?_) back
  cases l with
  | nil => exact nonempty ⟨empty, rfl⟩
  | cons v l =>
    simp only [joinWith, List.append_eq_nil_iff, List.cons_ne_nil, and_false, false_and] at empty

/-- A path that ends in a name has one above it, with the parts before the name. -/
theorem parts_parent {p : Path} {above : List PathPart} {name : Text}
    (h : p.parts = above ++ [.name name]) : ∃ q, p.parent? = some q ∧ q.parts = above := by
  have started : p.text ≠ [] := fun empty => by
    rw [parts_nil empty] at h
    cases above <;> cases h
  obtain ⟨first, rest, shape⟩ := List.exists_cons_of_ne_nil (pieces_ne_nil (· == separator) p.text)
  have whole (w : Text) (hw : w ∈ first :: rest) : ∀ c ∈ w, (c == separator) = false :=
    not_sep_of_mem_pieces (shape ▸ hw)
  have read := parts_of_pieces started shape
  rw [h, ← filterMap_trimPieces rest] at read
  unfold parent?
  rw [h, List.getLast?_concat, shape]
  simp only
  cases kept : trimPieces rest with
  | nil =>
    -- the name is all there is
    rw [kept, List.filterMap_nil, List.append_nil] at read
    refine ⟨⟨[]⟩, rfl, ?_⟩
    rcases leading_cases first with lead | lead | lead
    · rw [lead] at read
      cases above <;> simp_all
    · rw [lead] at read
      cases above <;> simp_all
    · rw [lead] at read
      cases reads : PathPart.inner? first <;> rw [reads] at read <;> cases above <;> simp_all
      rfl
  | cons w ws =>
    obtain ⟨front, last, pieces'⟩ :=
      (List.eq_nil_or_concat (w :: ws)).resolve_left (List.cons_ne_nil w ws)
    rw [List.concat_eq_append] at pieces'
    obtain ⟨c, reads⟩ := last_trimPieces (kept.trans pieces')
    rw [kept, pieces', List.filterMap_append, List.filterMap_cons_some reads, List.filterMap_nil,
      ← List.append_assoc] at read
    obtain ⟨parts, -⟩ := List.append_inj' read rfl
    have cut : (w :: ws).dropLast = front := by rw [pieces', List.dropLast_concat]
    simp only [cut]
    rw [parts, ← filterMap_trimPieces front]
    have inside (v : Text) (hv : v ∈ trimPieces front) : ∀ c ∈ v, (c == separator) = false := by
      refine whole v (List.mem_cons_of_mem first (mem_of_mem_trimPieces ?_))
      rw [kept, pieces']
      exact List.mem_append_left _ (mem_of_mem_trimPieces hv)
    split
    · rename_i none
      refine ⟨_, rfl, ?_⟩
      rw [none]
      rfl
    · rename_i other
      refine ⟨_, rfl, parts_joinWith (fun both => other both.1 both.2) fun v hv => ?_⟩
      rcases List.mem_cons.mp hv with rfl | later
      · exact whole v List.mem_cons_self
      · exact inside v later

/-! ### Normal paths -/

/-- A reduced path with its last part first: its parts, and perhaps the root under them. -/
def Stacked (l : List PathPart) : Prop :=
  ∃ inner lead, l = inner ++ lead ∧ (lead = [] ∨ lead = [.root]) ∧ ∀ c ∈ inner, c.Inner

theorem stacked_push {l : List PathPart} (h : Stacked l) {c : PathPart} (hc : c.Inner) :
    Stacked (push l c) := by
  obtain ⟨inner, lead, rfl, front, tail⟩ := h
  unfold push
  split
  · exact ⟨inner, lead, rfl, front, tail⟩
  · rename_i n rest top
    cases inner with
    | nil => rcases front with rfl | rfl <;> cases top
    | cons a inner =>
      obtain ⟨-, rfl⟩ := List.cons.inj top
      exact ⟨inner, lead, rfl, front, fun c hc => tail c (List.mem_cons_of_mem a hc)⟩
  · refine ⟨_ :: inner, lead, rfl, front, fun a ha => ?_⟩
    rcases List.mem_cons.mp ha with rfl | later
    · exact hc
    · exact tail a later

theorem stacked_foldl {l stack : List PathPart} (h : Stacked stack) (hl : ∀ c ∈ l, c.Inner) :
    Stacked (l.foldl push stack) := by
  induction l generalizing stack with
  | nil => exact h
  | cons c l ih =>
    exact ih (stacked_push h (hl c List.mem_cons_self)) fun a ha => hl a (List.mem_cons_of_mem c ha)

theorem proper_reduce {l : List PathPart} (h : Proper l) : Proper (reduce l) := by
  obtain ⟨lead, inner, rfl, front, tail⟩ := h
  have started : Stacked (lead.foldl push []) := by
    rcases front with rfl | rfl | rfl
    · exact ⟨[], [], rfl, .inl rfl, nofun⟩
    · exact ⟨[], [.root], rfl, .inr rfl, nofun⟩
    · exact ⟨[], [], rfl, .inl rfl, nofun⟩
  obtain ⟨inner', lead', shape, front', tail'⟩ := stacked_foldl started tail
  unfold reduce
  rw [List.foldl_append, shape, List.reverse_append]
  refine ⟨lead'.reverse, inner'.reverse, rfl, ?_, fun c hc => tail' c (List.mem_reverse.mp hc)⟩
  rcases front' with rfl | rfl
  · exact .inl rfl
  · exact .inr (.inl rfl)

theorem parts_normalize (p : Path) : p.normalize.parts = reduce p.parts :=
  parts_ofParts (proper_reduce (parts_proper p))

theorem reduce_concat (l : List PathPart) (c : PathPart) :
    reduce (l ++ [c]) = (push (l.foldl push []) c).reverse := by
  unfold reduce
  rw [List.foldl_append]
  rfl

/-- Names at the end of a path stay in its normal form. -/
theorem reduce_names (l : List PathPart) (names : List Text) :
    reduce (l ++ names.map .name) = reduce l ++ names.map .name := by
  induction names generalizing l with
  | nil => simp
  | cons n names ih =>
    have one : reduce (l ++ [.name n]) = reduce l ++ [.name n] := by
      rw [reduce_concat]
      exact List.reverse_cons
    rw [List.map_cons, List.append_cons, ih, one, ← List.append_cons]

theorem root_mem_push {l : List PathPart} {c : PathPart} :
    .root ∈ push l c ↔ .root ∈ l ∨ c = .root := by
  unfold push
  split
  · simp
  · simp
  · rw [List.mem_cons, or_comm, eq_comm]

theorem isAbsolute_normalize (p : Path) : p.normalize.isAbsolute = p.isAbsolute := by
  have kept (l stack : List PathPart) : .root ∈ l.foldl push stack ↔ .root ∈ stack ∨ .root ∈ l := by
    induction l generalizing stack with
    | nil => simp
    | cons c l ih =>
      rw [List.foldl_cons, ih, root_mem_push, List.mem_cons, or_assoc, eq_comm]
  rw [Bool.eq_iff_iff, isAbsolute_iff, isAbsolute_iff, parts_normalize]
  unfold reduce
  rw [List.mem_reverse, kept]
  simp

end Path

end Gateware
