import Gateware.Proofs.FileTree.Writing
import Gateware.Proofs.Repository.Packages
import Gateware.Sorted.Set

/-!
# What a run finds where it writes

A run makes files named like makefiles in the directories of libraries and projects, and anything
below the test benches (`Made`). Sources are found by other names and in other places: `named_congr`
and `find_below` say that a tree with such changes lists the same sources and leads to them alike.
-/

namespace Gateware

open Text

/-! ### Lists of locations -/

/-- Sorted lists that agree wherever a function has a value give the same values. -/
theorem filterMap_eq_of_sorted {α β : Type} [Key α] {l l' : List α}
    (sorted : l.Pairwise fun a b => Key.lt a b = true)
    (sorted' : l'.Pairwise fun a b => Key.lt a b = true) {f : α → Option β}
    (mem : ∀ a, f a ≠ none → (a ∈ l ↔ a ∈ l')) : l.filterMap f = l'.filterMap f := by
  have only (l : List α) : l.filterMap f = (l.filter fun a => (f a).isSome).filterMap f := by
    rw [List.filterMap_filter]
    refine List.filterMap_congr fun a _ => ?_
    cases f a <;> rfl
  rw [only l, only l']
  refine congrArg _ (KeySet.eq_of_sorted (sorted.filter _) (sorted'.filter _) fun a => ?_)
  rw [List.mem_filter, List.mem_filter]
  refine and_congr_left fun some => mem a fun none => ?_
  rw [none] at some
  cases some

namespace FileTree

variable {t u : FileTree} {dir p root : Path} {R l base : Location} {names : List Text} {x : Text}

theorem namesBelow?_eq_some_iff : namesBelow? base l = some names ↔ l = base ++ names := by
  fun_induction namesBelow? base l with
  | case1 l => simp
  | case2 => simp
  | case3 a base l ih => simp [ih]
  | case4 a base b l h => simp [Ne.symm h]

/-- The locations of all files, in their order. -/
def files (t : FileTree) : List Location :=
  (t.nodes.entries.filter fun e => e.2.contents.isSome).map Prod.fst

theorem sorted_files (t : FileTree) : t.files.Pairwise fun a b => Key.lt a b = true :=
  List.pairwise_map.mpr (t.nodes.sorted.filter _)

theorem mem_files (below : l ≠ []) :
    l ∈ t.files ↔ ∃ text time, t.node? l = some (.file text time) := by
  unfold files node?
  rw [if_neg below]
  simp only [List.mem_map, List.mem_filter, Table.get?_eq_some_iff]
  constructor
  · rintro ⟨⟨l, n⟩, ⟨held, file⟩, rfl⟩
    cases n with
    | directory => cases file
    | file text time => exact ⟨text, time, held⟩
  · rintro ⟨text, time, held⟩
    exact ⟨(l, .file text time), ⟨held, rfl⟩, rfl⟩

/-- The path of a file below a directory at a place. -/
def pathBelow? (base : Location) (dir : Path) (l : Location) : Option Path :=
  (namesBelow? base l).map fun names => names.foldl Path.join dir

theorem filesUnder_eq {n : Node} (h : t.find dir = .ok (base, n)) :
    t.filesUnder dir = t.files.filterMap (pathBelow? base dir) := by
  unfold filesUnder files pathBelow?
  rw [h, List.filterMap_map, List.filterMap_filter]
  refine List.filterMap_congr fun e _ => ?_
  obtain ⟨l, node⟩ := e
  cases node with
  | directory => rfl
  | file text time =>
    simp only [Node.contents, Function.comp]
    cases namesBelow? base l <;> rfl

/-! ### Places in directories -/

/-- Directories lead all the way to a place. -/
def Furnished (t : FileTree) (R : Location) (names : List Text) : Prop :=
  ∀ front, front <+: names → t.node? (R ++ front) = some .directory

theorem Sound.furnished (sound : t.Sound) (h : t.node? (R ++ (names ++ [x])) ≠ none) :
    Furnished t R names := by
  rintro front ⟨rest, rfl⟩
  have more : rest ++ [x] ≠ [] := by simp
  refine sound.above more ?_
  rwa [List.append_assoc] at h ⊢

end FileTree

namespace Repository

open FileTree

variable {t u : FileTree} {dir p root : Path} {R l : Location} {names above : List Text} {x : Text}

/-! ### What a run makes -/

/-- Names that can lead from the root of a repository to what a run makes or writes there. -/
def Made (names : List Text) : Prop :=
  (∃ rest, rest ≠ [] ∧ names = testbenchesName :: rest) ∨
    ∃ d, names = libraryName :: (d ++ [makefileName]) ∨
      names = projectsName :: (d ++ [makefileName])

theorem plain_libraryName : PathPart.Plain libraryName := by decide

theorem plain_projectsName : PathPart.Plain projectsName := by decide

theorem plain_testbenchesName : PathPart.Plain testbenchesName := by decide

theorem plain_makefileName : PathPart.Plain makefileName := by decide

/-- Names under which, as far as they go, nothing is made. -/
def Quiet (names : List Text) : Prop :=
  names ≠ [] ∧ names.head? ≠ some testbenchesName ∧ makefileName ∉ names

instance (names : List Text) : Decidable (Quiet names) := inferInstanceAs (Decidable (_ ∧ _ ∧ _))

theorem Quiet.not_made {front : List Text} (quiet : Quiet names) (before : front <+: names) :
    ¬ Made front := by
  rintro (⟨rest, -, rfl⟩ | ⟨d, rfl | rfl⟩)
  · obtain ⟨more, rfl⟩ := before
    exact quiet.2.1 rfl
  · exact quiet.2.2 (before.subset (by simp))
  · exact quiet.2.2 (before.subset (by simp))

/-- Below such names makefiles only are made. -/
theorem Quiet.makefile {rest : List Text} (quiet : Quiet names) (made : Made (names ++ rest)) :
    ∃ d, rest = d ++ [makefileName] := by
  obtain ⟨started, elsewhere, clear⟩ := quiet
  obtain ⟨y, names, rfl⟩ := List.exists_cons_of_ne_nil started
  have ends : ∃ d, y :: names ++ rest = d ++ [makefileName] := by
    rcases made with ⟨more, -, same⟩ | ⟨d, same | same⟩
    · exact absurd (congrArg some (List.cons.inj same).1) elsewhere
    · exact ⟨libraryName :: d, same⟩
    · exact ⟨projectsName :: d, same⟩
  obtain ⟨d, same⟩ := ends
  rcases List.eq_nil_or_concat rest with rfl | ⟨d', last, rfl⟩
  · rw [List.append_nil] at same
    exact absurd (same ▸ List.mem_append_right d List.mem_cons_self) clear
  · rw [List.concat_eq_append, ← List.append_assoc] at same
    obtain ⟨rfl⟩ := (List.cons.inj (List.append_inj_right' same rfl)).1
    exact ⟨d', List.concat_eq_append⟩

theorem Quiet.not_made_beyond {d : List Text} (quiet : Quiet names) (other : x ≠ makefileName) :
    ¬ Made (names ++ d ++ [x]) := by
  intro made
  rw [List.append_assoc] at made
  obtain ⟨d', same⟩ := quiet.makefile made
  exact other (List.cons.inj (List.append_inj_right' same rfl)).1

/-- A tree that differs from another one only in what a run can make. -/
structure Changes (t u : FileTree) (R : Location) : Prop where
  here : u.here = t.here
  place : ∀ l, u.node? l ≠ t.node? l →
    t.node? l ≠ some .directory ∧ ∃ names, Made names ∧ l = R ++ names

theorem find_below (changes : Changes t u R) (leads : Leads t root R)
    (below : Path.Below root names p)
    (clear : ∀ front, front <+: names → Made front → t.node? (R ++ front) = some .directory) :
    u.find p = t.find p := by
  refine find_congr changes.here fun l meets => ?_
  by_contra differs
  obtain ⟨missing, made, isMade, rfl⟩ := changes.place l differs
  rcases meets_under (leads.under below) meets with directory | ⟨front, before, same⟩
  · exact missing directory
  · obtain rfl := List.append_cancel_left same
    exact missing (clear made before isMade)

theorem find_quiet (changes : Changes t u R) (leads : Leads t root R)
    (below : Path.Below root names p) (quiet : Quiet names) : u.find p = t.find p :=
  find_below changes leads below fun _ before made => absurd made (quiet.not_made before)

/-- What stands in directories is found as before. -/
theorem find_in_directory {d : List Text} (changes : Changes t u R) (leads : Leads t root R)
    (quiet : Quiet names) (below : Path.Below root (names ++ d ++ [x]) p)
    (furnished : Furnished t R (names ++ d)) (other : x ≠ makefileName) : u.find p = t.find p := by
  refine find_below changes leads below fun front before made => ?_
  rcases List.prefix_concat_iff.mp before with rfl | before
  · exact absurd made (quiet.not_made_beyond other)
  · exact furnished front before

/-! ### Sources -/

/-- A file with the name `n` in the directory `d` below another one, which has the names given. -/
structure SourceBelow (t : FileTree) (root : Path) (R : Location) (names d : List Text) (n : Text)
    (p : Path) : Prop where
  plain : ∀ m ∈ d, PathPart.Plain m
  below : Path.Below root (names ++ d ++ [n]) p
  furnished : Furnished t R (names ++ d)

/-- A directory lists files below it by their names, of which its own is none. -/
theorem listed {α : Type} {f : Text → Option α} {s : α × Path} (sound : t.Sound)
    (leads : Leads t root R) (quiet : Quiet names) (below : Path.Below root names dir)
    (self : names.getLast?.bind f = none) (makefile : f makefileName = none)
    (h : s ∈ named t dir f) :
    ∃ d n, n ≠ makefileName ∧ SourceBelow t root R names d n s.2 := by
  obtain ⟨a, q⟩ := s
  obtain ⟨under, told⟩ := mem_named.mp h
  unfold filesUnder at under
  split at under
  · cases under
  rename_i base node found
  obtain ⟨⟨l, file⟩, held, path⟩ := List.mem_filterMap.mp under
  obtain ⟨placed, -⟩ := find_eq_ok.mp found
  have place := leads.place below placed
  split at path
  · rename_i text time inside isFile between
    simp only at isFile between
    subst isFile
    obtain rfl := namesBelow?_eq_some_iff.mp between
    obtain rfl := Option.some.inj path
    have plain : ∀ m ∈ inside, PathPart.Plain m := fun m hm =>
      sound.named _ held m (List.mem_append_right base hm)
    have stands := below.foldl_join plain
    rcases List.eq_nil_or_concat inside with rfl | ⟨d, n, rfl⟩
    · -- the directory itself has another name
      obtain ⟨above, x, rfl⟩ := (List.eq_nil_or_concat names).resolve_left quiet.1
      rw [List.concat_eq_append] at below self
      rw [List.foldl_nil, below.fileName?] at told
      rw [List.getLast?_concat] at self
      exact absurd (self.symm.trans told) nofun
    · rw [List.concat_eq_append] at plain held told stands ⊢
      rw [← List.append_assoc] at stands
      refine ⟨d, n, ?_, fun m hm => plain m (List.mem_append_left [n] hm), stands, ?_⟩
      · rintro rfl
        rw [stands.fileName?, Option.bind_some, makefile] at told
        cases told
      · refine sound.furnished (x := n) ?_
        have there : t.node? (base ++ (d ++ [n])) = some (.file text time) := by
          unfold node?
          rw [if_neg (by simp), Table.get?_eq_some_iff]
          exact held
        rw [place] at there
        rw [List.append_assoc names, ← List.append_assoc, there]
        nofun
  · cases path

theorem find_source {d : List Text} {n : Text} (changes : Changes t u R) (leads : Leads t root R)
    (quiet : Quiet names) (source : SourceBelow t root R names d n p) (other : n ≠ makefileName) :
    u.find p = t.find p :=
  find_in_directory changes leads quiet source.below source.furnished other

/-- A tree lists the sources of a directory as before when makefiles are none. -/
theorem named_congr {α : Type} {f : Text → Option α} (changes : Changes t u R)
    (leads : Leads t root R) (quiet : Quiet names) (below : Path.Below root names dir)
    (makefile : f makefileName = none) : named u dir f = named t dir f := by
  have found := find_quiet changes leads below quiet
  unfold named
  cases look : t.find dir with
  | error e =>
    unfold filesUnder
    rw [found, look]
  | ok place =>
    obtain ⟨base, n⟩ := place
    have placed := leads.place below (find_eq_ok.mp look).1
    rw [filesUnder_eq look, filesUnder_eq (found.trans look), List.filterMap_filterMap,
      List.filterMap_filterMap]
    refine filterMap_eq_of_sorted u.sorted_files t.sorted_files fun l some => ?_
    obtain ⟨s, value⟩ := Option.ne_none_iff_exists'.mp some
    obtain ⟨q, path, told⟩ := Option.bind_eq_some_iff.mp value
    obtain ⟨inside, between, rfl⟩ := Option.map_eq_some_iff.mp path
    obtain rfl := namesBelow?_eq_some_iff.mp between
    have inDirectory : base ++ inside ≠ [] := by
      rw [placed]
      simp [quiet.1]
    by_cases same : u.node? (base ++ inside) = t.node? (base ++ inside)
    · rw [mem_files inDirectory, mem_files inDirectory, same]
    · obtain ⟨-, made, isMade, shape⟩ := changes.place _ same
      rw [placed, List.append_assoc] at shape
      obtain rfl := List.append_cancel_left shape
      obtain ⟨d, rfl⟩ := quiet.makefile isMade
      rw [List.foldl_append, List.foldl_cons, List.foldl_nil,
        Path.fileName?_join plain_makefileName, Option.bind_some, makefile] at told
      cases told

end Repository

end Gateware
