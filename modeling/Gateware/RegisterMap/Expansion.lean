import Gateware.RegisterMap.Import

/-!
# Repeated fields

A field with a range of indices stands for one field at each index, whose name has the index in
the place of an `n`. `placeholderBy?_eq_none_iff` says when there is no such place, and
`substituteIndex_cases` that it is the same one for every index.
-/

namespace Gateware

/-! ### The index in a name -/

/-- The place of the first `n` that `p` accepts, given the characters before and after it. -/
def placeholderBy? (p : Option Char → Option Char → Bool) (prev : Option Char) :
    Text → Option (Text × Text)
  | [] => none
  | c :: s =>
    if c == 'n' && p prev s.head? then some ([], s)
    else (placeholderBy? p (some c) s).map fun (before, after) => (c :: before, after)

def isLowerAt (c : Option Char) : Bool := c.any Char.isLower

/-- The text before and after the placeholder: the first `n` outside of a lowercase word, or else
the first one. -/
def placeholder? (name : Text) : Option (Text × Text) :=
  (placeholderBy? (fun prev next => !isLowerAt prev && !isLowerAt next) none name).or
    (placeholderBy? (fun _ _ => true) none name)

/-- The name with the index at the place of its placeholder. -/
def substituteIndex (name index : Text) : Text :=
  match placeholder? name with
  | some (before, after) => before ++ index ++ after
  | none => name

theorem placeholderBy?_eq_none_iff {prev : Option Char} {s : Text} :
    placeholderBy? (fun _ _ => true) prev s = none ↔ ∀ c ∈ s, c ≠ 'n' := by
  induction s generalizing prev with
  | nil => simp [placeholderBy?]
  | cons c s ih => by_cases h : c = 'n' <;> simp [placeholderBy?, h, ih]

theorem eq_of_placeholderBy? {p : Option Char → Option Char → Bool} {prev : Option Char}
    {s before after : Text} (h : placeholderBy? p prev s = some (before, after)) :
    s = before ++ 'n' :: after := by
  induction s generalizing prev before with
  | nil => cases h
  | cons c s ih =>
    unfold placeholderBy? at h
    split at h
    · rename_i found
      cases h
      simp only [Bool.and_eq_true, beq_iff_eq] at found
      rw [found.1, List.nil_append]
    · obtain ⟨⟨b, a⟩, rest, same⟩ := Option.map_eq_some_iff.mp h
      cases same
      rw [ih rest, List.cons_append]

theorem eq_of_placeholder? {name before after : Text}
    (h : placeholder? name = some (before, after)) : name = before ++ 'n' :: after := by
  unfold placeholder? at h
  rcases Option.or_eq_some_iff.mp h with first | ⟨-, first⟩ <;> exact eq_of_placeholderBy? first

/-- A name has no `n`, and stays as it is, or every index takes the place of the same one. -/
theorem substituteIndex_cases (name : Text) :
    ('n' ∉ name ∧ ∀ index, substituteIndex name index = name) ∨
      ∃ before after, placeholder? name = some (before, after) ∧ name = before ++ 'n' :: after ∧
        ∀ index, substituteIndex name index = before ++ index ++ after := by
  unfold substituteIndex
  cases found : placeholder? name with
  | none =>
    have absent := placeholderBy?_eq_none_iff.mp (Option.or_eq_none_iff.mp found).2
    exact .inl ⟨fun held => absent 'n' held rfl, fun _ => rfl⟩
  | some place => exact .inr ⟨place.1, place.2, rfl, eq_of_placeholder? found, fun _ => rfl⟩

/-- Every character of the new name is one of the old name or of the index. -/
theorem mem_substituteIndex {name index : Text} {c : Char} (h : c ∈ substituteIndex name index) :
    c ∈ name ∨ c ∈ index := by
  rcases substituteIndex_cases name with ⟨-, same⟩ | ⟨before, after, -, split, written⟩
  · exact .inl (same index ▸ h)
  · rw [written] at h
    rw [split]
    simp only [List.mem_append, List.mem_cons] at h ⊢
    rcases h with (h | h) | h
    · exact .inl (.inl h)
    · exact .inr h
    · exact .inl (.inr (.inr h))

namespace RegisterMap

/-! ### Expansion -/

/-- The field at the index `n` of a repeated field. -/
def fieldAt (f : ConcreteField) (n : Nat) : ConcreteField :=
  { f with name := substituteIndex f.name (Text.decimal n), bits := .single n, range := none }

def expandField (f : Field) : List Field :=
  match f with
  | .imported _ => [f]
  | .concrete c =>
    match c.range with
    | some r => if r.isEmpty then [f] else r.indices.map fun n => .concrete (fieldAt c n)
    | none => [f]

def expandRegister : Register → Register
  | .imported r => .imported r
  | .concrete r => .concrete { r with fields := r.fields.flatMap expandField }

def expandGroup (g : Group) : Group := { g with registers := g.registers.map expandRegister }

/-- The map with its repeated fields written out, unless imports wait for resolution. -/
def expand (m : RegisterMap) : Except ExpansionError RegisterMap :=
  if m.isResolved then .ok { m with groups := m.groups.map expandGroup }
  else .error ⟨m.unresolved⟩

def expandAll (t : MapTable) : MapTable :=
  t.mapValues fun _ m =>
    match expand m with
    | .ok expanded => expanded
    | .error _ => m

def expandWarnings (t : MapTable) : List ExpansionWarning :=
  t.entries.filterMap fun (key, m) =>
    match expand m with
    | .ok _ => none
    | .error error => some ⟨key, error⟩

end RegisterMap

end Gateware
