import Gateware.Library.Resolution
import Gateware.Proofs.Text.Literal

/-!
# Shared and own dependencies

Resolution splits what the vendors of a library need into what all of them share and what each
needs on its own. `Split` says what such a split is, and `resolve_split` that resolution makes one
for every library: nothing that a vendor needs is lost, and nothing is listed twice.
-/

namespace Gateware

open Text

namespace Library

/-- What a vendor needs, as it is seen from the directory of the library. -/
def Needs (dir : Path) (m : Manifest) (x : Text) : Prop :=
  ∃ dependency, dependency ∈ m.dependencies ∧ expandRoot dir dependency = x

/-- A source in a hardware description language that no vendor's name marks as its own. -/
structure Shareable (v : Vendor) (x : Text) : Prop where
  source : ∃ extension ∈ Vendor.sourceExtensions, (Path.mk x).extension? = some extension
  no_manifest : ∀ w : Vendor, ¬ w.manifestEnd <:+ x
  unnamed : ¬ v.name <:+: x

/-- The library `l'` splits what the vendors of `l` need. -/
structure Split (dir : Path) (l l' : Library) : Prop where
  whole : ∀ v m, l.vendors.get? v = some m → ∃ m', l'.vendors.get? v = some m' ∧
    (∀ x, Needs dir m x ↔ x ∈ l'.generic ∨ x ∈ m'.dependencies) ∧
    ∀ x, x ∈ l'.generic → ¬ x ∈ m'.dependencies
  several : 1 < l.vendors.size →
    ∀ x, x ∈ l'.generic ↔ ∀ v m, l.vendors.get? v = some m → Needs dir m x
  single : ∀ v m, l.vendors.entries = [(v, m)] →
    ∀ x, x ∈ l'.generic ↔ Needs dir m x ∧ Shareable v x
  /-- A file of the repository that two vendors name, one from the root and one from the library's
  directory; the second name must not read as one from the root itself. -/
  named_twice : ∀ v w m n path, v ≠ w → l.vendors.get? v = some m → l.vendors.get? w = some n →
    path.head? ≠ some '/' → Vendor.rootToken ++ '/' :: path ∈ m.dependencies →
    ((Path.mk path).relativeTo dir).toSlash ∈ n.dependencies →
    ¬ Vendor.rootToken <+: ((Path.mk path).relativeTo dir).toSlash →
    ((Path.mk path).relativeTo dir).toSlash ∈ l'.generic

/-! ### Dependencies seen from the library -/

theorem expandRoot_rootToken (dir : Path) (rest : Text) :
    expandRoot dir (Vendor.rootToken ++ rest) =
      (Path.relativeTo ⟨rest.dropWhile (· == '/')⟩ dir).toSlash := by
  unfold expandRoot
  rw [stripStart?_append]

theorem expandRoot_root (dir : Path) {path : Text} (h : path.head? ≠ some '/') :
    expandRoot dir (Vendor.rootToken ++ '/' :: path) = ((Path.mk path).relativeTo dir).toSlash := by
  have bare : List.dropWhile (· == '/') ('/' :: path) = path := by
    cases path with
    | nil => rfl
    | cons c path =>
      have other : (c == '/') = false := by simpa using h
      simp [other]
  rw [expandRoot_rootToken, bare]

theorem expandRoot_own (dir : Path) {dependency : Text} (h : ¬ Vendor.rootToken <+: dependency) :
    expandRoot dir dependency = dependency := by
  unfold expandRoot
  rw [stripStart?_eq_none_iff.mpr h]

theorem isShareable_iff {v : Vendor} {x : Text} : isShareable v x = true ↔ Shareable v x := by
  have source : isSource x = true ↔
      ∃ extension ∈ Vendor.sourceExtensions, (Path.mk x).extension? = some extension := by
    unfold isSource
    cases (Path.mk x).extension? with
    | none => simp
    | some e => simp
  have manifest : Vendor.all.any (fun w => endsWith w.manifestEnd x) = false ↔
      ∀ w : Vendor, ¬ w.manifestEnd <:+ x := by
    rw [List.any_eq_false]
    refine ⟨fun h w suffix => ?_, fun h w _ => ?_⟩
    · obtain ⟨r, same⟩ := suffix
      exact h w (Vendor.mem_all w) (endsWith_iff.mpr ⟨r, same.symm⟩)
    · rw [endsWith_iff]
      rintro ⟨r, same⟩
      exact h w ⟨r, same.symm⟩
  have name : includes v.name x = false ↔ ¬ v.name <:+: x := by
    rw [← includes_iff, Bool.not_eq_true]
  unfold isShareable
  rw [Bool.and_eq_true, Bool.and_eq_true, Bool.not_eq_true', Bool.not_eq_true', source, manifest,
    name]
  exact ⟨fun h => ⟨h.1.1, h.1.2, h.2⟩, fun h => ⟨⟨h.source, h.no_manifest⟩, h.unnamed⟩⟩

/-! ### What is generic -/

theorem mem_foldl_inter {shared : KeySet Text} {rest : List (Vendor × Manifest)} {x : Text} :
    x ∈ rest.foldl (fun shared e => shared.inter e.2.dependencies) shared ↔
      x ∈ shared ∧ ∀ e ∈ rest, x ∈ e.2.dependencies := by
  induction rest generalizing shared with
  | nil => simp
  | cons e rest ih => simp [ih, and_assoc]

theorem mem_generic_several {vendors : Table Vendor Manifest} (h : 1 < vendors.size) {x : Text} :
    x ∈ genericDependencies vendors ↔ ∀ e ∈ vendors.entries, x ∈ e.2.dependencies := by
  unfold Table.size at h
  unfold genericDependencies
  match entries : vendors.entries with
  | [] => simp [entries] at h
  | [_] => simp [entries] at h
  | e :: e' :: rest => simp [mem_foldl_inter, and_assoc]

theorem mem_generic_single {vendors : Table Vendor Manifest} {v : Vendor} {m : Manifest}
    (h : vendors.entries = [(v, m)]) {x : Text} :
    x ∈ genericDependencies vendors ↔ x ∈ m.dependencies ∧ Shareable v x := by
  unfold genericDependencies
  rw [h]
  simp only [KeySet.mem_filter, isShareable_iff]

/-- What is generic is needed by every vendor. -/
theorem mem_dependencies_of_generic {vendors : Table Vendor Manifest} {x : Text}
    (h : x ∈ genericDependencies vendors) : ∀ e ∈ vendors.entries, x ∈ e.2.dependencies := by
  match entries : vendors.entries with
  | [] => simp
  | [(v, m)] => simpa using ((mem_generic_single entries).mp h).1
  | e :: e' :: rest =>
    rw [← entries]
    exact (mem_generic_several (by simp [Table.size, entries])).mp h

theorem one_lt_size {vendors : Table Vendor Manifest} {v w : Vendor} {m n : Manifest}
    (other : v ≠ w) (hv : vendors.get? v = some m) (hw : vendors.get? w = some n) :
    1 < vendors.size := by
  rw [Table.get?_eq_some_iff] at hv hw
  unfold Table.size
  match entries : vendors.entries with
  | [] => simp [entries] at hv
  | [e] =>
    rw [entries, List.mem_singleton] at hv hw
    exact absurd (congrArg Prod.fst (hv.trans hw.symm)) other
  | _ :: _ :: _ => simp

/-! ### What resolution leaves alone -/

theorem dependencies_resolveInterfaces (key : Text) (dir : Path) (interfaces : InterfaceIndex)
    (m : Manifest) : (resolveInterfaces key dir interfaces m).1.dependencies = m.dependencies := by
  unfold resolveInterfaces
  refine List.foldlRecOn (motive := fun r : Manifest × List LibraryWarning =>
    r.1.dependencies = m.dependencies) m.interfaces.toList _ rfl ?_
  rintro ⟨m', warnings⟩ same name -
  simp only
  split
  · exact same
  · exact same

theorem dependencies_resolveManifest (key : Text) (dir : Path) (index : LibraryIndex)
    (interfaces : InterfaceIndex) (v : Vendor) (m : Manifest) :
    (resolveManifest key dir index interfaces v m).1.dependencies = m.dependencies :=
  dependencies_resolveInterfaces key dir interfaces (resolveNames key index v m).1

/-- The manifests with every dependency as it is seen from the directory. -/
def expanded (dir : Path) (vendors : Table Vendor Manifest) : Table Vendor Manifest :=
  vendors.mapValues fun _ m => { m with dependencies := m.dependencies.map (expandRoot dir) }

theorem forall_expanded_iff {dir : Path} {vendors : Table Vendor Manifest} {x : Text} :
    (∀ e ∈ (expanded dir vendors).entries, x ∈ e.2.dependencies) ↔
      ∀ v m, vendors.get? v = some m → Needs dir m x := by
  unfold expanded Table.mapValues
  rw [List.forall_mem_map]
  constructor
  · intro h v m held
    exact KeySet.mem_map.mp (h (v, m) (Table.get?_eq_some_iff.mp held))
  · intro h e he
    exact KeySet.mem_map.mpr (h e.1 e.2 (Table.get?_eq_some_iff.mpr he))

/-- What resolution makes of one library, in terms of the expanded dependencies. -/
theorem resolve_expanded (key : Text) (index : LibraryIndex) (interfaces : InterfaceIndex)
    (l : Library) :
    (l.resolve key index interfaces).1.generic =
        genericDependencies (expanded (libraryRoot.join key) l.vendors) ∧
      ∀ v m, l.vendors.get? v = some m →
        ∃ m', (l.resolve key index interfaces).1.vendors.get? v = some m' ∧
          m'.dependencies = (m.dependencies.map (expandRoot (libraryRoot.join key))).diff
            (genericDependencies (expanded (libraryRoot.join key) l.vendors)) := by
  refine ⟨rfl, fun v m held => ?_⟩
  unfold resolve splitDependencies
  simp only [Table.get?_mapValues, held, Option.map_some]
  exact ⟨_, rfl, dependencies_resolveManifest ..⟩

end Library

namespace LibraryTable

open Library

/-- Resolution splits the dependencies of every library. -/
theorem resolve_split (t : LibraryTable) (interfaces : InterfaceIndex) (k : Text) (l : Library)
    (h : t.get? k = some l) :
    ∃ l', (t.resolve interfaces).get? k = some l' ∧ Split (libraryRoot.join k) l l' := by
  refine ⟨(l.resolve k (LibraryIndex.ofTable t) interfaces).1, ?_, ?_⟩
  · unfold LibraryTable.resolve
    rw [Table.get?_mapValues, h]
    rfl
  obtain ⟨generic, own⟩ := resolve_expanded k (LibraryIndex.ofTable t) interfaces l
  generalize (l.resolve k (LibraryIndex.ofTable t) interfaces).1 = l' at generic own ⊢
  generalize libraryRoot.join k = dir at generic own ⊢
  have needs {m : Manifest} {x : Text} :
      x ∈ m.dependencies.map (expandRoot dir) ↔ Needs dir m x := KeySet.mem_map
  have several (many : 1 < l.vendors.size) (x : Text) :
      x ∈ l'.generic ↔ ∀ v m, l.vendors.get? v = some m → Needs dir m x := by
    have many' : 1 < (expanded dir l.vendors).size := by
      simpa [Table.size, expanded, Table.mapValues] using many
    rw [generic, mem_generic_several many', forall_expanded_iff]
  refine ⟨fun v m held => ?_, several, fun v m entries x => ?_, ?_⟩
  · obtain ⟨m', held', rest⟩ := own v m held
    refine ⟨m', held', fun x => ?_, fun x shared => ?_⟩
    · have within : x ∈ l'.generic → Needs dir m x := fun shared =>
        forall_expanded_iff.mp (mem_dependencies_of_generic (generic ▸ shared)) v m held
      rw [rest, KeySet.mem_diff, needs, ← generic]
      by_cases shared : x ∈ l'.generic
      · simp [shared, within shared]
      · simp [shared]
    · rw [rest, KeySet.mem_diff, ← generic]
      exact fun left => left.2 shared
  · have alone : (expanded dir l.vendors).entries =
        [(v, { m with dependencies := m.dependencies.map (expandRoot dir) })] := by
      simp [expanded, Table.mapValues, entries]
    rw [generic, mem_generic_single alone, needs]
  · intro v w m n path other heldV heldW relative first second own'
    refine (several (one_lt_size other heldV heldW) _).mpr fun u p heldU => ?_
    have either : u = v ∨ u = w := by
      cases u <;> cases v <;> cases w <;> simp_all
    rcases either with rfl | rfl
    · obtain rfl := Option.some.inj (heldV.symm.trans heldU)
      exact ⟨_, first, expandRoot_root dir relative⟩
    · obtain rfl := Option.some.inj (heldW.symm.trans heldU)
      exact ⟨_, second, expandRoot_own dir own'⟩

/-- A core that both vendors build: one names a common file from the root of the repository, the
other from the core's directory. -/
def coreTable : LibraryTable := collect [
  ⟨"ip/core", "core", .xilinx,
    { dependencies := .ofList ["core.v", "core_ip.tcl", "$ad_hdl_dir/library/common/up_axi.v"] }⟩,
  ⟨"ip/core", "core", .intel,
    { dependencies := .ofList ["core.v", "core_hw.tcl", "../../common/up_axi.v"] }⟩]

theorem resolve_split_coreTable :
    ∃ l l', coreTable.get? "ip/core" = some l ∧ (coreTable.resolve {}).get? "ip/core" = some l' ∧
      Split (libraryRoot.join "ip/core") l l' ∧
      l'.generic.toList = List.map String.toList ["../../common/up_axi.v", "core.v"] := by
  have present : (coreTable.get? "ip/core").isSome = true := by decide +kernel
  have generic : ((coreTable.resolve {}).get? "ip/core").map (·.generic.toList) =
      some (List.map String.toList ["../../common/up_axi.v", "core.v"]) := by decide +kernel
  obtain ⟨l, held⟩ := Option.isSome_iff_exists.mp present
  obtain ⟨l', held', split⟩ := resolve_split coreTable {} "ip/core" l held
  rw [held'] at generic
  exact ⟨l, l', held, held', split, Option.some.inj generic⟩

/-- A core with a directory named like the token for the root, in which it keeps a file. -/
def tokenTable : LibraryTable := collect [
  ⟨"core", "core", .xilinx,
    { dependencies := .ofList ["$ad_hdl_dir/library/core/$ad_hdl_dir/x.v"] }⟩,
  ⟨"core", "core", .intel, { dependencies := .ofList ["$ad_hdl_dir/x.v"] }⟩]

def dependenciesOf? (t : LibraryTable) (k : Text) (v : Vendor) : Option (KeySet Text) :=
  ((t.get? k).bind (·.vendors.get? v)).map (·.dependencies)

/-- One vendor names the file from the root and the other from the core's directory, but the second
name is read as one from the root, so the file is not shared. -/
theorem not_generic_tokenTable :
    let path : Text := "library/core/$ad_hdl_dir/x.v"
    let relative := ((Path.mk path).relativeTo (libraryRoot.join "core")).toSlash
    ∃ m n l', dependenciesOf? tokenTable "core" .xilinx = some m ∧
      dependenciesOf? tokenTable "core" .intel = some n ∧
      Vendor.rootToken ++ '/' :: path ∈ m ∧ relative ∈ n ∧
      (tokenTable.resolve {}).get? "core" = some l' ∧ ¬ relative ∈ l'.generic := by
  intro path relative
  have named : (dependenciesOf? tokenTable "core" .xilinx).any
      (·.contains (Vendor.rootToken ++ '/' :: path)) = true := by decide +kernel
  have named' : (dependenciesOf? tokenTable "core" .intel).any (·.contains relative) = true := by
    decide +kernel
  have apart : ((tokenTable.resolve {}).get? "core").any (fun l => !l.generic.contains relative) =
      true := by decide +kernel
  obtain ⟨m, hm, named⟩ := (Option.any_eq_true ..).mp named
  obtain ⟨n, hn, named'⟩ := (Option.any_eq_true ..).mp named'
  obtain ⟨l', held, apart⟩ := (Option.any_eq_true ..).mp apart
  rw [Bool.not_eq_true', KeySet.contains_eq_false_iff] at apart
  exact ⟨m, n, l', hm, hn, KeySet.contains_iff.mp named, KeySet.contains_iff.mp named', held, apart⟩

end LibraryTable

end Gateware
