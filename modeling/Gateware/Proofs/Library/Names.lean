import Gateware.Library.Resolution
import Gateware.Proofs.Path.Fork

/-!
# Names of libraries and interfaces

`NamesResolved` says what becomes of the names in a manifest: a library's is replaced by the least
key that offers it, and an interface adds the files and the directory that define it. Resolution
does this for every library, tells what it cannot find, and sees of the other libraries only what
they offer (`resolve_exact`).
-/

namespace Gateware

open Text

namespace LibraryTable

/-- The library at the key has the name and is built for the vendor. -/
def Offers (t : LibraryTable) (v : Vendor) (name key : Text) : Prop :=
  ∃ l, t.get? key = some l ∧ l.vendors.contains v = true ∧ l.name = name

/-- What the name of a library becomes: the least key that offers it, or the name itself. -/
def Becomes (t : LibraryTable) (v : Vendor) (name x : Text) : Prop :=
  t.Offers v name x ∧ (∀ k, t.Offers v name k → Key.lt k x = false) ∨
    (∀ k, ¬ t.Offers v name k) ∧ x = name

/-- Every key is made of names. -/
def NormalKeys (t : LibraryTable) : Prop :=
  ∀ k ∈ t.keys, ∃ names, (∀ n ∈ names, PathPart.Plain n) ∧ k = joinWith [Path.separator] names

def offers (t : LibraryTable) (v : Vendor) (name : Text) : Bool :=
  t.entries.any fun e => e.2.vendors.contains v && e.2.name == name

/-- The names in a manifest that nothing offers: of libraries, then of interfaces. -/
def missing (t : LibraryTable) (defined : InterfaceIndex) (key : Text) (v : Vendor) (m : Manifest) :
    List LibraryWarning :=
  (m.libraryDependencies.filter fun name => !t.offers v name).toList.map (.libraryNotFound key v) ++
    (m.interfaces.filter fun name => (defined.directory? name).isNone).toList.map
      (.interfaceNotFound key)

end LibraryTable

/-- The text names the directory, without that of all libraries in front. -/
def Path.Shortened (d : Path) (x : Text) : Prop :=
  (∃ rest, d.parts = .name "library" :: rest ∧
    x = joinWith [separator] (rest.map PathPart.text)) ∨
  (∀ rest, d.parts ≠ .name "library" :: rest) ∧ x = d.toSlash

namespace Manifest

/-- The interface is declared, and defined in the directory. -/
def DefinedIn (m : Manifest) (defined : InterfaceIndex) (name : Text) (d : Path) : Prop :=
  name ∈ m.interfaces ∧ defined.directory? name = some d

/-- The file defines an interface that is declared. -/
def NeedsFile (m : Manifest) (defined : InterfaceIndex) (file : Path) : Prop :=
  ∃ name d, m.DefinedIn defined name d ∧
    (file = d.join (name ++ ".xml") ∨ file = d.join (name ++ "_rtl.xml"))

/-- The manifest `m'` is `m` with its names resolved, for a library in the directory `dir`. -/
structure NamesResolved (t : LibraryTable) (defined : InterfaceIndex) (dir : Path) (v : Vendor)
    (m m' : Manifest) : Prop where
  top : m'.top = m.top
  interfaces : m'.interfaces = m.interfaces
  parameters : m'.parameters = m.parameters
  libraries : ∀ x, x ∈ m'.libraryDependencies ↔
    ∃ name, name ∈ m.libraryDependencies ∧ t.Becomes v name x
  /-- One entry of what is gained leads from the directory to each of the files. -/
  files : ∃ gained : KeySet Text, m'.interfaceFiles = m.interfaceFiles.union gained ∧
    (∀ x, x ∈ gained → ∃ file, m.NeedsFile defined file ∧
      (dir.join x).normalize = file.normalize) ∧
    ∀ file, m.NeedsFile defined file →
      ∃! x, x ∈ gained ∧ (dir.join x).normalize = file.normalize
  directories : ∀ x, x ∈ m'.interfaceDependencies ↔ x ∈ m.interfaceDependencies ∨
    ∃ name d, m.DefinedIn defined name d ∧ d.Shortened x

end Manifest

/-! ### The index of libraries -/

namespace LibraryTable

variable {t : LibraryTable} {v : Vendor} {name : Text}

theorem names_foldl_add (entries : List (Text × Library)) (i : VendorIndex) (name : Text) :
    (entries.foldl (fun i e => i.add e.1 e.2) i).names.get? name =
      (i.names.get? name).or ((entries.find? (·.2.name == name)).map Prod.fst) := by
  induction entries generalizing i with
  | nil => simp
  | cons e entries ih =>
    have one : (i.add e.1 e.2).names.get? name =
        (i.names.get? name).or (if e.2.name = name then some e.1 else none) := by
      unfold VendorIndex.add Table.contains
      by_cases same : e.2.name = name
      · subst same
        cases known : i.names.get? e.2.name <;> simp [known, Key.same, Key.irrefl]
      · have other : Key.same name e.2.name = false := by
          rw [Bool.eq_false_iff, ne_eq, Key.same_iff]
          exact Ne.symm same
        cases known : i.names.get? e.2.name <;> simp [same, other]
    rw [List.foldl_cons, ih, one, List.find?_cons, Option.or_assoc]
    by_cases same : e.2.name = name
    · simp [same]
    · simp [same, beq_eq_false_iff_ne.mpr same]

/-- The index finds a name in the first entry that offers it. -/
theorem keyOf?_ofTable (t : LibraryTable) (v : Vendor) (name : Text) :
    (LibraryIndex.ofTable t).keyOf? v name =
      (t.entries.find? fun e => e.2.vendors.contains v && e.2.name == name).map Prod.fst := by
  have index : (LibraryIndex.ofTable t).vendors.get? v = some (VendorIndex.ofTable t v) := by
    cases v <;> rfl
  have names := names_foldl_add (t.entries.filter fun e => e.2.vendors.contains v) {} name
  rw [List.find?_filter] at names
  simp only [Bool.decide_and, Bool.decide_eq_true] at names
  unfold LibraryIndex.keyOf?
  rw [index]
  exact names

theorem offers_iff_mem {key : Text} : t.Offers v name key ↔
    ∃ e ∈ t.entries, (e.2.vendors.contains v && e.2.name == name) = true ∧ e.1 = key := by
  constructor
  · rintro ⟨l, held, built, same⟩
    exact ⟨(key, l), Table.get?_eq_some_iff.mp held, by simp [built, same], rfl⟩
  · rintro ⟨⟨_, l⟩, entry, offered, rfl⟩
    obtain ⟨built, same⟩ := by simpa using offered
    exact ⟨l, Table.get?_eq_some_iff.mpr entry, built, same⟩

theorem keyOf?_eq_none_iff :
    (LibraryIndex.ofTable t).keyOf? v name = none ↔ ∀ k, ¬ t.Offers v name k := by
  rw [keyOf?_ofTable, Option.map_eq_none_iff, List.find?_eq_none]
  simp only [offers_iff_mem]
  exact ⟨fun h k ⟨e, entry, offered, _⟩ => h e entry offered,
    fun h e entry offered => h e.1 ⟨e, entry, offered, rfl⟩⟩

/-- Entries stand in rising order, so the first one has the least key. -/
theorem least_of_keyOf? {key : Text} (h : (LibraryIndex.ofTable t).keyOf? v name = some key) :
    t.Offers v name key ∧ ∀ k, t.Offers v name k → Key.lt k key = false := by
  rw [keyOf?_ofTable] at h
  obtain ⟨e, found, rfl⟩ := Option.map_eq_some_iff.mp h
  obtain ⟨offered, before, after, split, earlier⟩ := List.find?_eq_some_iff_append.mp found
  refine ⟨offers_iff_mem.mpr ⟨e, List.mem_of_find?_eq_some found, offered, rfl⟩, fun k other => ?_⟩
  obtain ⟨e', entry, offered', rfl⟩ := offers_iff_mem.mp other
  have sorted := t.sorted
  rw [split] at sorted entry
  rcases List.mem_append.mp entry with front | back
  · -- an earlier entry would have been found
    have missed := earlier e' front
    rw [offered'] at missed
    cases missed
  · rcases List.mem_cons.mp back with rfl | later
    · exact Key.irrefl _
    · exact Key.asymm ((List.pairwise_cons.mp (List.pairwise_append.mp sorted).2.1).1 e' later)

theorem keyOf?_eq_some_iff {key : Text} :
    (LibraryIndex.ofTable t).keyOf? v name = some key ↔
      t.Offers v name key ∧ ∀ k, t.Offers v name k → Key.lt k key = false := by
  refine ⟨least_of_keyOf?, fun ⟨offered, least⟩ => ?_⟩
  cases found : (LibraryIndex.ofTable t).keyOf? v name with
  | none => exact absurd offered (keyOf?_eq_none_iff.mp found key)
  | some first =>
    obtain ⟨offered', least'⟩ := least_of_keyOf? found
    rw [Key.eq_of_not_lt (least first offered') (least' key offered)]

theorem becomes_iff {x : Text} :
    t.Becomes v name x ↔ ((LibraryIndex.ofTable t).keyOf? v name).getD name = x := by
  unfold Becomes
  rw [← keyOf?_eq_some_iff, ← keyOf?_eq_none_iff]
  cases (LibraryIndex.ofTable t).keyOf? v name <;> simp [eq_comm]

theorem keyOf?_congr {u : LibraryTable} (same : ∀ v name k, u.Offers v name k ↔ t.Offers v name k)
    (v : Vendor) (name : Text) :
    (LibraryIndex.ofTable u).keyOf? v name = (LibraryIndex.ofTable t).keyOf? v name :=
  Option.ext fun k => by simp only [keyOf?_eq_some_iff, same]

theorem offers_iff : t.offers v name = true ↔ ∃ k, t.Offers v name k := by
  unfold offers
  rw [List.any_eq_true]
  simp only [offers_iff_mem]
  exact ⟨fun ⟨e, entry, offered⟩ => ⟨e.1, e, entry, offered, rfl⟩,
    fun ⟨k, e, entry, offered, _⟩ => ⟨e, entry, offered⟩⟩

theorem not_offers_eq_isNone :
    (!t.offers v name) = ((LibraryIndex.ofTable t).keyOf? v name).isNone := by
  rw [Bool.eq_iff_iff, Bool.not_eq_true', Bool.eq_false_iff, ne_eq, offers_iff, not_exists,
    Option.isNone_iff_eq_none, keyOf?_eq_none_iff]

end LibraryTable

namespace Library

/-! ### The interfaces of a manifest -/

variable {dir : Path} {defined : InterfaceIndex}

def located (defined : InterfaceIndex) (names : List Text) : List (Text × Path) :=
  names.filterMap fun name => (defined.directory? name).map fun d => (name, d)

theorem mem_located {names : List Text} {name : Text} {d : Path} :
    (name, d) ∈ located defined names ↔ name ∈ names ∧ defined.directory? name = some d := by
  unfold located
  rw [List.mem_filterMap]
  constructor
  · rintro ⟨n, place, found⟩
    obtain ⟨d', directory, same⟩ := Option.map_eq_some_iff.mp found
    obtain ⟨rfl, rfl⟩ := Prod.mk.inj same
    exact ⟨place, directory⟩
  · rintro ⟨place, directory⟩
    exact ⟨name, place, by rw [directory]; rfl⟩

def addNamed (key : Text) (dir : Path) (defined : InterfaceIndex)
    (acc : Manifest × List LibraryWarning) (name : Text) : Manifest × List LibraryWarning :=
  (((defined.directory? name).map fun d => addInterface dir d acc.1 name).getD acc.1,
    acc.2 ++ if (defined.directory? name).isNone then [.interfaceNotFound key name] else [])

theorem foldl_addNamed (key : Text) (names : List Text) (acc : Manifest × List LibraryWarning) :
    names.foldl (addNamed key dir defined) acc =
      ((located defined names).foldl (fun m e => addInterface dir e.2 m e.1) acc.1,
        acc.2 ++ (names.filter fun name => (defined.directory? name).isNone).map
          (.interfaceNotFound key)) := by
  induction names generalizing acc with
  | nil => simp [located]
  | cons name names ih =>
    rw [List.foldl_cons, ih]
    cases directory : defined.directory? name <;> simp [addNamed, located, directory]

theorem resolveInterfaces_eq (key : Text) (dir : Path) (defined : InterfaceIndex) (m : Manifest) :
    resolveInterfaces key dir defined m =
      ((located defined m.interfaces.toList).foldl (fun m e => addInterface dir e.2 m e.1) m,
        (m.interfaces.toList.filter fun name => (defined.directory? name).isNone).map
          (.interfaceNotFound key)) := by
  have steps := @foldl_addNamed dir defined key m.interfaces.toList (m, [])
  rw [List.nil_append] at steps
  rw [← steps]
  unfold resolveInterfaces
  congr 1
  funext ⟨m', told⟩ name
  unfold addNamed
  cases defined.directory? name <;> simp

def fileEntry (dir d : Path) (file : Text) : Text := ((d.join file).relativeTo dir).toSlash

def gainedFiles (dir : Path) (found : List (Text × Path)) : KeySet Text :=
  .ofList (found.flatMap fun e => (interfaceFileNames e.1).map (fileEntry dir e.2))

def gainedDirectories (found : List (Text × Path)) : KeySet Text :=
  .ofList (found.map fun e => ((e.2.after? libraryRoot).getD e.2).toSlash)

theorem mem_foldl_insert {α : Type} (f : α → Text) (l : List α) (s : KeySet Text) (x : Text) :
    x ∈ l.foldl (fun s a => s.insert (f a)) s ↔ x ∈ s ∨ x ∈ l.map f := by
  induction l generalizing s with
  | nil => simp
  | cons a l ih =>
    rw [List.foldl_cons, ih, KeySet.mem_insert, List.map_cons, List.mem_cons, or_assoc,
      or_left_comm]

/-- The interfaces add their files and directories, and leave all else. -/
theorem foldl_addInterface (dir : Path) (found : List (Text × Path)) (m : Manifest) :
    found.foldl (fun m e => addInterface dir e.2 m e.1) m =
      { m with
        interfaceFiles := m.interfaceFiles.union (gainedFiles dir found)
        interfaceDependencies := m.interfaceDependencies.union (gainedDirectories found) } := by
  induction found generalizing m with
  | nil =>
    have files : m.interfaceFiles.union (gainedFiles dir []) = m.interfaceFiles :=
      KeySet.ext_mem fun x => by simp [gainedFiles]
    have directories : m.interfaceDependencies.union (gainedDirectories []) =
        m.interfaceDependencies := KeySet.ext_mem fun x => by simp [gainedDirectories]
    rw [files, directories]
    rfl
  | cons e found ih =>
    have files : (addInterface dir e.2 m e.1).interfaceFiles.union (gainedFiles dir found) =
        m.interfaceFiles.union (gainedFiles dir (e :: found)) := by
      refine KeySet.ext_mem fun x => ?_
      unfold addInterface gainedFiles fileEntry
      rw [KeySet.mem_union, mem_foldl_insert, KeySet.mem_union, KeySet.mem_ofList,
        KeySet.mem_ofList, List.flatMap_cons, List.mem_append, or_assoc]
    have directories : (addInterface dir e.2 m e.1).interfaceDependencies.union
        (gainedDirectories found) =
          m.interfaceDependencies.union (gainedDirectories (e :: found)) := by
      refine KeySet.ext_mem fun x => ?_
      unfold addInterface gainedDirectories
      rw [KeySet.mem_union, KeySet.mem_insert, KeySet.mem_union, KeySet.mem_ofList,
        KeySet.mem_ofList, List.map_cons, List.mem_cons, or_assoc, or_left_comm]
    rw [List.foldl_cons, ih, files, directories]
    rfl

theorem mem_gainedFiles {m : Manifest} {x : Text} :
    x ∈ gainedFiles dir (located defined m.interfaces.toList) ↔
      ∃ file, m.NeedsFile defined file ∧ x = (file.relativeTo dir).toSlash := by
  unfold gainedFiles
  rw [KeySet.mem_ofList, List.mem_flatMap]
  constructor
  · rintro ⟨⟨name, d⟩, found, entry⟩
    obtain ⟨file, suffix, rfl⟩ := List.mem_map.mp entry
    refine ⟨d.join file, ⟨name, d, mem_located.mp found, ?_⟩, rfl⟩
    rcases List.mem_cons.mp suffix with rfl | last
    · exact .inl rfl
    · exact .inr (congrArg d.join (List.mem_singleton.mp last))
  · rintro ⟨file, ⟨name, d, found, suffix⟩, rfl⟩
    refine ⟨(name, d), mem_located.mpr found, ?_⟩
    rcases suffix with rfl | rfl
    · exact List.mem_map_of_mem List.mem_cons_self
    · exact List.mem_map_of_mem (List.mem_cons_of_mem _ List.mem_cons_self)

/-- What leads on from a directory is written from the parts below it. -/
theorem shortened_iff {d : Path} {x : Text} :
    d.Shortened x ↔ x = ((d.after? libraryRoot).getD d).toSlash := by
  have start : libraryRoot.parts = [.name "library"] := by decide
  have after : d.after? libraryRoot =
      (Path.partsAfter? [.name "library"] d.parts).map Path.ofParts := by
    unfold Path.after?
    rw [start]
  unfold Path.Shortened
  rw [after]
  cases below : Path.partsAfter? [.name "library"] d.parts with
  | none =>
    have outside : ∀ rest, d.parts ≠ .name "library" :: rest := fun rest same => by
      rw [Path.partsAfter?_eq_some_iff.mpr same] at below
      cases below
    constructor
    · rintro (⟨rest, same, -⟩ | ⟨-, same⟩)
      · exact absurd same (outside rest)
      · exact same
    · exact fun same => .inr ⟨outside, same⟩
  | some rest =>
    have parts : d.parts = .name "library" :: rest := Path.partsAfter?_eq_some_iff.mp below
    have written : (Path.ofParts rest).toSlash =
        joinWith [Path.separator] (rest.map PathPart.text) :=
      Path.toSlash_ofParts_inner fun c hc => Path.inner_of_mem_tail parts hc
    rw [Option.map_some, Option.getD_some, written]
    constructor
    · rintro (⟨rest', same, shape⟩ | ⟨outside, -⟩)
      · rw [parts] at same
        obtain rfl := (List.cons.inj same).2
        exact shape
      · exact absurd parts (outside rest)
    · exact fun same => .inl ⟨rest, parts, same⟩

/-! ### One manifest -/

variable {t : LibraryTable}

theorem resolveManifest_eq (key : Text) (dir : Path) (t : LibraryTable) (defined : InterfaceIndex)
    (v : Vendor) (m : Manifest) :
    resolveManifest key dir (LibraryIndex.ofTable t) defined v m =
      ({ m with
          libraryDependencies := m.libraryDependencies.map fun name =>
            ((LibraryIndex.ofTable t).keyOf? v name).getD name
          interfaceFiles :=
            m.interfaceFiles.union (gainedFiles dir (located defined m.interfaces.toList))
          interfaceDependencies := m.interfaceDependencies.union
            (gainedDirectories (located defined m.interfaces.toList)) },
        t.missing defined key v m) := by
  have names : (m.libraryDependencies.filter fun name => !t.offers v name).toList =
      m.libraryDependencies.toList.filter fun name =>
        ((LibraryIndex.ofTable t).keyOf? v name).isNone :=
    congrArg (List.filter · m.libraryDependencies.toList)
      (funext fun name => LibraryTable.not_offers_eq_isNone)
  unfold resolveManifest LibraryTable.missing
  simp only [resolveInterfaces_eq, foldl_addInterface, names]
  rfl

theorem names_of_normal (normal : t.NormalKeys) {key : Text} {l : Library}
    (h : t.get? key = some l) :
    ∃ names : List Text, (libraryRoot.join key).steps = names.map .name ∧
      (libraryRoot.join key).isAbsolute = false := by
  obtain ⟨names, plain, rfl⟩ := normal key (List.mem_map_of_mem (Table.get?_eq_some_iff.mp h))
  have root : Path.Below ⟨[]⟩ ["library"] libraryRoot := ⟨by decide, by decide⟩
  have below := root.join_joinWith plain
  exact ⟨_, below.steps, below.absolute⟩

theorem namesResolved {names : List Text} (down : dir.steps = names.map .name)
    (relative : dir.isAbsolute = false) (key : Text) (v : Vendor) (m : Manifest)
    (dependencies : KeySet Text) :
    m.NamesResolved t defined dir v (resolveManifest key dir (LibraryIndex.ofTable t) defined v
      { m with dependencies }).1 := by
  rw [resolveManifest_eq]
  refine ⟨rfl, rfl, rfl, fun x => ?_, ⟨_, rfl, fun x gained => ?_, fun file needed => ?_⟩,
    fun x => ?_⟩
  · simp only [KeySet.mem_map, LibraryTable.becomes_iff]
  · obtain ⟨file, needed, rfl⟩ := mem_gainedFiles.mp gained
    exact ⟨file, needed, Path.normalize_join_relativeTo down relative file⟩
  · refine ⟨(file.relativeTo dir).toSlash, ⟨mem_gainedFiles.mpr ⟨file, needed, rfl⟩,
      Path.normalize_join_relativeTo down relative file⟩, ?_⟩
    rintro x ⟨gained, leads⟩
    obtain ⟨other, -, rfl⟩ := mem_gainedFiles.mp gained
    rw [Path.normalize_join_relativeTo down relative] at leads
    exact (Path.toSlash_relativeTo_inj down relative).mpr leads
  · rw [KeySet.mem_union]
    refine or_congr_right ?_
    unfold gainedDirectories
    rw [KeySet.mem_ofList, List.mem_map]
    simp only [Prod.exists, mem_located, shortened_iff]
    exact exists_congr fun name => exists_congr fun d => and_congr_right fun _ => eq_comm

/-! ### One library -/

theorem resolve_warnings (key : Text) (t : LibraryTable) (defined : InterfaceIndex) (l : Library) :
    (l.resolve key (LibraryIndex.ofTable t) defined).2 =
      l.vendors.entries.flatMap fun e => t.missing defined key e.1 e.2 := by
  unfold resolve splitDependencies
  simp only [Table.mapValues, List.flatMap_map, resolveManifest_eq]
  rfl

theorem resolve_congr {index index' : LibraryIndex}
    (same : ∀ v name, index.keyOf? v name = index'.keyOf? v name) (key : Text)
    (defined : InterfaceIndex) (l : Library) :
    l.resolve key index defined = l.resolve key index' defined := by
  have names : resolveNames key index = resolveNames key index' := by
    funext v m
    unfold resolveNames
    simp only [same]
  unfold resolve resolveManifest
  rw [names]

theorem resolve_kept (key : Text) (index : LibraryIndex) (defined : InterfaceIndex) (l : Library) :
    (l.resolve key index defined).1.name = l.name ∧
      (l.resolve key index defined).1.vendors.keys = l.vendors.keys ∧
      ∀ v, (l.resolve key index defined).1.vendors.contains v = l.vendors.contains v := by
  refine ⟨rfl, ?_, fun v => ?_⟩
  · unfold resolve splitDependencies
    simp [Table.keys, Table.mapValues, Function.comp_def]
  · unfold resolve splitDependencies
    simp [Table.contains]

end Library

namespace LibraryTable

theorem get?_resolve (t : LibraryTable) (defined : InterfaceIndex) (key : Text) :
    (t.resolve defined).get? key =
      (t.get? key).map fun l => (l.resolve key (LibraryIndex.ofTable t) defined).1 := by
  unfold LibraryTable.resolve
  rw [Table.get?_mapValues]

theorem offers_resolve (t : LibraryTable) (defined : InterfaceIndex) (v : Vendor)
    (name key : Text) : (t.resolve defined).Offers v name key ↔ t.Offers v name key := by
  unfold Offers
  rw [get?_resolve]
  cases t.get? key with
  | none => simp
  | some l =>
    obtain ⟨same, -, built⟩ := Library.resolve_kept key (LibraryIndex.ofTable t) defined l
    simp only [Option.map_some, Option.some.injEq, exists_eq_left', same, built]

/-- Resolution is exact for the names of libraries and interfaces: every manifest becomes what
`NamesResolved` says, each name that is not found is told once, by keys, vendors and names, and of
the other libraries only what they offer matters, which resolution leaves as it was. -/
theorem resolve_exact (t : LibraryTable) (defined : InterfaceIndex) (normal : t.NormalKeys) :
    (t.resolve defined).keys = t.keys ∧
    (∀ k l, t.get? k = some l → ∃ l', (t.resolve defined).get? k = some l' ∧ l'.name = l.name ∧
      l'.vendors.keys = l.vendors.keys ∧
      ∀ v m, l.vendors.get? v = some m → ∃ m', l'.vendors.get? v = some m' ∧
        m.NamesResolved t defined (libraryRoot.join k) v m') ∧
    t.resolveWarnings defined = (t.entries.flatMap fun e =>
      e.2.vendors.entries.flatMap fun w => t.missing defined e.1 w.1 w.2) ∧
    (∀ v name k, (t.resolve defined).Offers v name k ↔ t.Offers v name k) ∧
    ∀ u : LibraryTable, (∀ v name k, u.Offers v name k ↔ t.Offers v name k) →
      ∀ k, u.get? k = t.get? k → (u.resolve defined).get? k = (t.resolve defined).get? k := by
  refine ⟨?_, fun k l held => ?_, ?_, offers_resolve t defined, fun u same k held => ?_⟩
  · simp [LibraryTable.resolve, Table.keys, Table.mapValues, Function.comp_def]
  · obtain ⟨names, down, relative⟩ := Library.names_of_normal normal held
    obtain ⟨name, vendors, -⟩ := Library.resolve_kept k (LibraryIndex.ofTable t) defined l
    refine ⟨_, by rw [get?_resolve, held]; rfl, name, vendors, fun v m built => ?_⟩
    unfold Library.resolve Library.splitDependencies
    simp only [Table.get?_mapValues, built, Option.map_some]
    exact ⟨_, rfl, Library.namesResolved down relative k v m _⟩
  · unfold resolveWarnings
    simp only [Library.resolve_warnings]
  · rw [get?_resolve, get?_resolve, held]
    have index := keyOf?_congr same
    simp only [Library.resolve_congr index]

/-- A core that needs a library which two directories offer, and an interface; one more name of each
kind is unknown. -/
def bufferTable : LibraryTable := collect [
  ⟨"ip/core", "core", .xilinx,
    { libraryDependencies := .ofList ["util_cdc", "util_missing"]
      interfaces := .ofList ["fifo_wr", "if_unknown"] }⟩,
  ⟨"util_cdc", "util_cdc", .xilinx, {}⟩, ⟨"axi/util_cdc", "util_cdc", .xilinx, {}⟩]

def bufferInterfaces : InterfaceIndex :=
  InterfaceIndex.insert {} ⟨"library/interfaces"⟩ ["fifo_wr"]

def manifestOf? (t : LibraryTable) (key : Text) (v : Vendor) : Option Manifest :=
  (t.get? key).bind (·.vendors.get? v)

theorem resolve_exact_bufferTable :
    bufferTable.NormalKeys ∧
      (∃ m m', manifestOf? bufferTable "ip/core" .xilinx = some m ∧
        manifestOf? (bufferTable.resolve bufferInterfaces) "ip/core" .xilinx = some m' ∧
        m.NamesResolved bufferTable bufferInterfaces (libraryRoot.join "ip/core") .xilinx m' ∧
        m'.libraryDependencies.toList = List.map String.toList ["axi/util_cdc", "util_missing"] ∧
        m'.interfaceFiles.toList = List.map String.toList
          ["../../interfaces/fifo_wr.xml", "../../interfaces/fifo_wr_rtl.xml"]) ∧
      bufferTable.resolveWarnings bufferInterfaces =
        [.libraryNotFound "ip/core" .xilinx "util_missing",
          .interfaceNotFound "ip/core" "if_unknown"] := by
  let directories : List (List Text) := [["axi", "util_cdc"], ["ip", "core"], ["util_cdc"]]
  have keys : bufferTable.keys = directories.map (joinWith [Path.separator]) := by decide +kernel
  have plain : ∀ names ∈ directories, ∀ n ∈ names, PathPart.Plain n := by decide
  have normal : bufferTable.NormalKeys := by
    intro k hk
    rw [keys] at hk
    obtain ⟨names, hnames, rfl⟩ := List.mem_map.mp hk
    exact ⟨names, plain names hnames, rfl⟩
  have built : (manifestOf? bufferTable "ip/core" .xilinx).isSome = true := by decide +kernel
  have libraries : (manifestOf? (bufferTable.resolve bufferInterfaces) "ip/core" .xilinx).map
      (·.libraryDependencies.toList) =
        some (List.map String.toList ["axi/util_cdc", "util_missing"]) := by decide +kernel
  have files : (manifestOf? (bufferTable.resolve bufferInterfaces) "ip/core" .xilinx).map
      (·.interfaceFiles.toList) = some (List.map String.toList
        ["../../interfaces/fifo_wr.xml", "../../interfaces/fifo_wr_rtl.xml"]) := by decide +kernel
  obtain ⟨-, each, told, -⟩ := resolve_exact bufferTable bufferInterfaces normal
  obtain ⟨m, held⟩ := Option.isSome_iff_exists.mp built
  obtain ⟨l, library, own⟩ := Option.bind_eq_some_iff.mp held
  obtain ⟨l', resolved, -, -, manifests⟩ := each "ip/core" l library
  obtain ⟨m', own', names⟩ := manifests .xilinx m own
  have held' : manifestOf? (bufferTable.resolve bufferInterfaces) "ip/core" .xilinx = some m' :=
    Option.bind_eq_some_iff.mpr ⟨l', resolved, own'⟩
  rw [held'] at libraries files
  exact ⟨normal, ⟨m, m', held, held', names, Option.some.inj libraries, Option.some.inj files⟩,
    told.trans (by decide +kernel)⟩

end LibraryTable

end Gateware
