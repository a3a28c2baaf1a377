import Gateware.Proofs.FileTree.Following
import Gateware.Proofs.Path.Below

/-!
# What writing changes

Making a directory adds the directories that are missing on its way and changes nothing else
(`MakesWay`), and does nothing when the way is there (`createDirectory_again`). Writing a file
changes its own place.
-/

namespace Gateware

open Text

/-- What a file holds, without its time; a directory holds no text. -/
def Node.contents : Node → Option (Option Text)
  | .directory => none
  | .file text _ => some text

namespace Table

variable {α β : Type} [Key α]

theorem place_of_look {k : α} {v : β} {l : List (α × β)}
    (sorted : l.Pairwise fun a b => Key.lt a.1 b.1 = true) (h : look k l = some v) :
    place k v l = l := by
  induction l with
  | nil => cases h
  | cons e l ih =>
    obtain ⟨first, rest⟩ := List.pairwise_cons.mp sorted
    unfold look at h
    unfold place
    split at h
    · rename_i here
      obtain rfl := Key.same_iff.mp here
      cases h
      simp [Key.irrefl]
    · have above : Key.lt e.1 k = true := first (k, v) ((look_eq_some_iff rest).mp h)
      rw [if_neg (by simp [Key.asymm above]), if_pos above, ih rest h]

theorem insert_of_get? {t : Table α β} {k : α} {v : β} (h : t.get? k = some v) :
    t.insert k v = t := by
  have same := place_of_look t.sorted h
  cases t
  unfold insert
  simp only [same]

end Table

namespace FileTree

variable {t u v : FileTree} {p q root : Path} {l x R D : Location} {names : List Text} {n : Node}

/-- The path leads to a directory. -/
structure Leads (t : FileTree) (root : Path) (R : Location) : Prop where
  way : root.steps.foldlM t.advance (t.start root) = .ok R
  directory : t.node? R = some .directory

theorem Grows.leads (grows : Grows t u) (h : Leads t root R) : Leads u root R where
  way := by
    rw [start_congr grows.here]
    exact grows.foldlM_advance h.way
  directory := grows.directory R h.directory

theorem start_of_absolute (h : p.isAbsolute = q.isAbsolute) : t.start p = t.start q := by
  unfold start
  rw [h]

theorem Leads.under (leads : Leads t root R) (below : Path.Below root names p) :
    Under t R names p := by
  refine ⟨root.steps, below.steps, ?_⟩
  rw [start_of_absolute below.absolute]
  exact leads.way

theorem Leads.place (leads : Leads t root R) (below : Path.Below root names p)
    (h : t.place p = .ok l) : l = R ++ names := by
  have led := steps_of_place h
  rw [below.steps, start_of_absolute below.absolute, List.foldlM_append, leads.way] at led
  exact advance_names led

/-! ### Putting a node -/

def put (t : FileTree) (l : Location) (n : Node) : FileTree :=
  { t with nodes := t.nodes.insert l n }

theorem node?_put (h : l ≠ []) : (t.put l n).node? x = if x = l then some n else t.node? x := by
  unfold put node?
  rw [Table.get?_insert]
  by_cases root : x = []
  · subst root
    rw [if_pos rfl, if_neg (Ne.symm h), if_pos rfl]
  · simp only [root, if_false, Key.same_iff]

theorem below_root (h : t.node? l ≠ some .directory) : l ≠ [] := by
  rintro rfl
  exact h rfl

/-- A tree grows when a node is put where nothing was, or a file where no directory was. -/
theorem grows_put (h : t.node? l ≠ some .directory)
    (fits : t.node? l = none ∨ ∃ text time, n = .file text time) : Grows t (t.put l n) where
  here := rfl
  directory x hx := by
    have other : x ≠ l := fun same => h (same ▸ hx)
    rw [node?_put (below_root h), if_neg other]
    exact hx
  file x text time hx := by
    rw [node?_put (below_root h)]
    split
    · rename_i same
      rcases fits with none | ⟨text', time', rfl⟩
      · rw [same, none] at hx
        cases hx
      · exact ⟨text', time', rfl⟩
    · exact ⟨text, time, hx⟩

theorem grows_put_directory (h : t.node? l = none) : Grows t (t.put l .directory) :=
  grows_put (by rw [h]; nofun) (.inl h)

theorem grows_put_file {text : Option Text} {time : Timestamp} (h : t.node? l ≠ some .directory) :
    Grows t (t.put l (.file text time)) :=
  grows_put h (.inr ⟨text, time, rfl⟩)

/-- A place that holds a node already is not changed by it. -/
theorem put_self (h : t.node? l = some n) (below : l ≠ []) : t.put l n = t := by
  unfold node? at h
  rw [if_neg below] at h
  unfold put
  rw [Table.insert_of_get? h]

theorem write_eq_ok {text : Option Text} {time : Timestamp} :
    t.write p text time = .ok u ↔ ∃ l, t.place p = .ok l ∧ t.node? l ≠ some .directory ∧
      u = t.put l (.file text time) := by
  unfold write
  cases t.place p with
  | error e => simp [Except.bind]
  | ok l =>
    simp only [Except.bind, Except.ok.injEq, exists_eq_left']
    split
    · rename_i directory
      simp [directory]
    · rename_i other
      rw [Except.ok.injEq, eq_comm]
      exact ⟨fun same => ⟨other, same⟩, fun same => same.2⟩

/-! ### Making directories -/

/-- Makes the directories that the steps lead over. -/
def makeAlong (t : FileTree) (l : Location) : List PathPart → FileTree × Option FileError
  | [] => (t, none)
  | .up :: rest => makeAlong t l.dropLast rest
  | .name n :: rest =>
    if nameLimit < byteSize n then (t, some .nameTooLong)
    else
      match t.node? (l ++ [n]) with
      | some .directory => makeAlong t (l ++ [n]) rest
      | some (.file _ _) => (t, some .notDirectory)
      | none => makeAlong (t.put (l ++ [n]) .directory) (l ++ [n]) rest
  | _ :: rest => makeAlong t l rest

theorem makeDirectories_eq (t : FileTree) (l : Location) (ps : List Text) :
    t.makeDirectories l ps = t.makeAlong l (ps.filterMap PathPart.inner?) := by
  induction ps generalizing t l with
  | nil => rfl
  | cons piece ps ih =>
    unfold makeDirectories
    cases reads : PathPart.inner? piece with
    | none =>
      rw [List.filterMap_cons_none reads]
      exact ih t l
    | some c =>
      rw [List.filterMap_cons_some reads]
      cases c with
      | root => exact ih t l
      | here => exact ih t l
      | up => exact ih t l.dropLast
      | name n =>
        unfold makeAlong
        simp only [ih]
        rfl

theorem grows_makeAlong (t : FileTree) (l : Location) (steps : List PathPart) :
    Grows t (t.makeAlong l steps).1 := by
  fun_induction makeAlong t l steps with
  | case1 => exact Grows.refl _
  | case2 _ _ _ ih => exact ih
  | case3 => exact Grows.refl _
  | case4 _ _ _ _ _ _ ih => exact ih
  | case5 => exact Grows.refl _
  | case6 t l n _ _ none ih => exact (grows_put_directory none).trans ih
  | case7 _ _ _ _ _ _ ih => exact ih

/-- Nothing is made where a way is there already. -/
theorem makeAlong_there {front rest : List PathPart} (h : front.foldlM t.advance l = .ok D)
    (directory : t.node? D = some .directory) :
    t.makeAlong l (front ++ rest) = t.makeAlong D rest := by
  induction front generalizing l with
  | nil =>
    cases h
    rfl
  | cons c front ih =>
    rw [List.foldlM_cons, bind_eq_ok] at h
    obtain ⟨next, first, rest'⟩ := h
    have here := directory_of_advance first
    have onward := ih rest'
    rw [List.cons_append]
    unfold advance at first
    rw [here] at first
    simp only at first
    cases c with
    | root =>
      cases first
      exact onward
    | here =>
      cases first
      exact onward
    | up =>
      cases first
      exact onward
    | name n =>
      simp only at first
      split at first
      · cases first
      · rename_i short
        cases first
        have there : t.node? (l ++ [n]) = some .directory := by
          cases front with
          | nil =>
            cases rest'
            exact directory
          | cons c front =>
            obtain ⟨m, stop, there⟩ := @directory_of_onward t (l ++ [n]) D [] front c rest'
            cases stop
            exact there
        rw [← onward]
        simp only [makeAlong, short, if_false, there]

/-- What is made on the way by the names: directories, where nothing was. -/
structure MakesWay (t u : FileTree) (R : Location) (names : List Text) : Prop where
  grows : Grows t u
  rest : ∀ x, u.node? x = t.node? x ∨
    t.node? x = none ∧ u.node? x = some .directory ∧ ∃ front, front <+: names ∧ x = R ++ front

theorem makesWay_of_names (h : t.makeAlong R (names.map .name) = (u, none)) :
    MakesWay t u R names := by
  induction names generalizing t R with
  | nil =>
    cases h
    exact ⟨Grows.refl _, fun x => .inl rfl⟩
  | cons n names ih =>
    rw [List.map_cons] at h
    unfold makeAlong at h
    split at h
    · cases h
    -- the rest of the way starts at the first name
    have onward (s : FileTree) (grows : Grows t s) (there : s.node? (R ++ [n]) = some .directory)
        (made : MakesWay s u (R ++ [n]) names)
        (only : ∀ x, s.node? x = t.node? x ∨ t.node? x = none ∧ x = R ++ [n]) :
        MakesWay t u R (n :: names) := by
      refine ⟨grows.trans made.grows, fun x => ?_⟩
      rcases made.rest x with same | ⟨none, directory, front, before, rfl⟩
      · rcases only x with same' | ⟨none, rfl⟩
        · exact .inl (same.trans same')
        · exact .inr ⟨none, same.trans there, [n], List.prefix_append [n] names, rfl⟩
      · rcases only (R ++ [n] ++ front) with same' | ⟨-, itself⟩
        · exact .inr ⟨same'.symm.trans none, directory, n :: front,
            (List.prefix_cons_inj n).mpr before, (List.append_cons R n front).symm⟩
        · rw [itself, there] at none
          cases none
    split at h
    · rename_i there
      exact onward t (Grows.refl t) there (ih h) fun x => .inl rfl
    · cases h
    · rename_i none
      have missing : t.node? (R ++ [n]) ≠ some .directory := by
        rw [none]
        nofun
      refine onward (t.put (R ++ [n]) .directory) (grows_put_directory none) ?_ (ih h) fun x => ?_
      · rw [node?_put (below_root missing), if_pos rfl]
      · rw [node?_put (below_root missing)]
        split
        · rename_i same
          exact .inr ⟨same ▸ none, same⟩
        · exact .inl rfl

/-- A path that a directory can be made at, as far as its text goes. -/
def Makeable (q : Path) : Prop := q.text = [] ∨ FileError.ofPath? q = none

theorem steps_nil (h : p.text = []) : p.steps = [] := by
  unfold Path.steps
  rw [h]
  rfl

theorem createDirectory_eq (h : Makeable q) :
    t.createDirectory q = t.makeAlong (t.start q) q.steps := by
  unfold createDirectory
  by_cases empty : q.text = []
  · rw [if_pos empty, steps_nil empty]
    rfl
  · rw [if_neg empty, h.resolve_left empty]
    exact makeDirectories_eq t (t.start q) _

theorem makeable_of_created (h : t.createDirectory q = (u, none)) : Makeable q := by
  unfold createDirectory at h
  split at h
  · rename_i empty
    exact .inl empty
  · split at h
    · cases h
    · rename_i fine
      exact .inr fine

theorem grows_createDirectory (t : FileTree) (q : Path) : Grows t (t.createDirectory q).1 := by
  unfold createDirectory
  split
  · exact Grows.refl t
  · split
    · exact Grows.refl t
    · rw [makeDirectories_eq]
      exact grows_makeAlong t _ _

/-- Making a directory below a place makes the missing part of its way. -/
theorem makesWay_of_created (leads : Leads t root R) (below : Path.Below root names q)
    (h : t.createDirectory q = (u, none)) : MakesWay t u R names := by
  rw [createDirectory_eq (makeable_of_created h), below.steps, start_of_absolute below.absolute,
    makeAlong_there leads.way leads.directory] at h
  exact makesWay_of_names h

theorem createDirectory_again (fine : Makeable q) (leads : Leads t q D) :
    t.createDirectory q = (t, none) := by
  have there := @makeAlong_there _ _ _ _ [] leads.way leads.directory
  rw [List.append_nil] at there
  rw [createDirectory_eq fine, there]
  rfl

/-! ### Trees with the same texts -/

/-- The trees hold the same directories, and files with the same texts. -/
structure SameTexts (t u : FileTree) : Prop where
  here : u.here = t.here
  contents : ∀ l, (u.node? l).map Node.contents = (t.node? l).map Node.contents

theorem SameTexts.refl (t : FileTree) : SameTexts t t := ⟨rfl, fun _ => rfl⟩

theorem SameTexts.symm (h : SameTexts t u) : SameTexts u t :=
  ⟨h.here.symm, fun l => (h.contents l).symm⟩

theorem SameTexts.trans (h : SameTexts t u) (h' : SameTexts u v) : SameTexts t v :=
  ⟨h'.here.trans h.here, fun l => (h'.contents l).trans (h.contents l)⟩

theorem SameTexts.file (h : SameTexts t u) {text : Option Text} {time : Timestamp}
    (file : t.node? l = some (.file text time)) : ∃ time', u.node? l = some (.file text time') := by
  have same := h.contents l
  rw [file] at same
  obtain ⟨node, held, texts⟩ := Option.map_eq_some_iff.mp same
  cases node with
  | directory => cases texts
  | file text' time' =>
    cases texts
    exact ⟨time', held⟩

theorem SameTexts.grows (h : SameTexts t u) : Grows t u where
  here := h.here
  directory l directory := by
    have same := h.contents l
    rw [directory] at same
    obtain ⟨node, held, empty⟩ := Option.map_eq_some_iff.mp same
    cases node with
    | directory => exact held
    | file text time => cases empty
  file _ text _ file := by
    obtain ⟨time', kept⟩ := h.file file
    exact ⟨text, time', kept⟩

/-- A file that is written anew with its text has another time at most. -/
theorem sameTexts_put {text : Option Text} {time time' : Timestamp}
    (h : t.node? l = some (.file text time)) : SameTexts t (t.put l (.file text time')) where
  here := rfl
  contents x := by
    have below : l ≠ [] := below_root (by rw [h]; nofun)
    rw [node?_put below]
    split
    · rename_i same
      rw [same, h]
      rfl
    · rfl

end FileTree

end Gateware
