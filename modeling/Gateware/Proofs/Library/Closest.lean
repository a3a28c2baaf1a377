import Gateware.Project.Basic
import Gateware.Proofs.Library.Names
import Gateware.Proofs.Text.Bytes
import Gateware.Proofs.Text.Literal

/-!
# The closest library

A project names a library by its name, or by a part of its key. `Closest` says which key is meant,
and `closest_exact` that the index answers it, so that a resolved project needs exactly the
libraries that its names mean.
-/

namespace Gateware

open Text

namespace Text

/-- Shorter texts stand first, and texts of one length in the order of their bytes. -/
def Before (a b : Text) : Prop :=
  (bytes a).length < (bytes b).length ∨ (bytes a).length = (bytes b).length ∧ bytes a < bytes b

theorem Before.trans {a b c : Text} (h : Before a b) (h' : Before b c) : Before a c := by
  rcases h with shorter | ⟨same, less⟩
  · rcases h' with shorter' | ⟨same', -⟩
    · exact .inl (Nat.lt_trans shorter shorter')
    · exact .inl (same' ▸ shorter)
  · rcases h' with shorter' | ⟨same', less'⟩
    · exact .inl (same ▸ shorter')
    · exact .inr ⟨same.trans same', List.lt_trans less less'⟩

theorem Before.irrefl (a : Text) : ¬ Before a a := by
  rintro (shorter | ⟨-, less⟩)
  · exact Nat.lt_irrefl _ shorter
  · exact List.lt_irrefl _ less

theorem shorterFirst_iff {a b : Text} : shorterFirst a b = true ↔ a = b ∨ Before a b := by
  unfold shorterFirst Before
  simp only [length_bytes, bytes_lt_iff, Bool.or_eq_true, Bool.and_eq_true, decide_eq_true_eq,
    beq_iff_eq, Bool.not_eq_true']
  constructor
  · rintro (shorter | ⟨same, not_after⟩)
    · exact .inr (.inl shorter)
    · rcases Key.connex a b with less | equal | greater
      · exact .inr (.inr ⟨same, less⟩)
      · exact .inl equal
      · rw [greater] at not_after
        cases not_after
  · rintro (rfl | shorter | ⟨same, less⟩)
    · exact .inr ⟨rfl, Key.irrefl a⟩
    · exact .inl shorter
    · exact .inr ⟨same, Key.asymm less⟩

theorem pairwise_shorterFirst (l : List Text) :
    (l.mergeSort shorterFirst).Pairwise fun a b => a = b ∨ Before a b := by
  have trans (a b c : Text) (h : shorterFirst a b = true) (h' : shorterFirst b c = true) :
      shorterFirst a c = true := by
    simp only [shorterFirst_iff] at h h' ⊢
    rcases h with rfl | before
    · exact h'
    · rcases h' with rfl | before'
      · exact .inr before
      · exact .inr (before.trans before')
  have total (a b : Text) : (shorterFirst a b || shorterFirst b a) = true := by
    unfold shorterFirst
    rcases Key.connex a b with less | rfl | greater
    · simp [Key.asymm less]
      omega
    · simp [Key.irrefl]
    · simp [Key.asymm greater]
      omega
  exact (List.pairwise_mergeSort trans total l).imp shorterFirst_iff.mp

end Text

namespace LibraryTable

/-- The library at the key is built for the vendor. -/
def Builds (t : LibraryTable) (v : Vendor) (key : Text) : Prop :=
  ∃ l, t.get? key = some l ∧ l.vendors.contains v = true

/-- The name means the key, for a vendor: the least key of that name, or else the first of the keys
in which the name stands. -/
inductive Closest (t : LibraryTable) (v : Vendor) (name key : Text) : Prop
  | named (offered : t.Offers v name key)
      (least : ∀ k, t.Offers v name k → k = key ∨ Key.lt key k = true)
  | within (unnamed : ∀ k, ¬ t.Offers v name k) (built : t.Builds v key) (stands : name <:+: key)
      (first : ∀ k, t.Builds v k → name <:+: k → k = key ∨ Before key k)

variable {t : LibraryTable} {v : Vendor} {name key : Text}

theorem Offers.builds (h : t.Offers v name key) : t.Builds v key := by
  obtain ⟨l, held, built, -⟩ := h
  exact ⟨l, held, built⟩

theorem keys_foldl_add (entries : List (Text × Library)) (i : VendorIndex) :
    (entries.foldl (fun i e => i.add e.1 e.2) i).keys = i.keys ++ entries.map Prod.fst := by
  induction entries generalizing i with
  | nil => simp
  | cons e entries ih =>
    rw [List.foldl_cons, ih, List.map_cons, List.append_cons]
    rfl

theorem mem_keys_ofTable : key ∈ (VendorIndex.ofTable t v).keys ↔ t.Builds v key := by
  unfold VendorIndex.ofTable VendorIndex.ofEntries
  simp only [List.mem_mergeSort, keys_foldl_add, List.nil_append, List.mem_map, List.mem_filter]
  constructor
  · rintro ⟨⟨_, l⟩, ⟨entry, built⟩, rfl⟩
    exact ⟨l, Table.get?_eq_some_iff.mpr entry, built⟩
  · rintro ⟨l, held, built⟩
    exact ⟨(key, l), ⟨Table.get?_eq_some_iff.mp held, built⟩, rfl⟩

theorem closest?_ofTable (t : LibraryTable) (v : Vendor) (name : Text) :
    (LibraryIndex.ofTable t).closest? v name =
      ((LibraryIndex.ofTable t).keyOf? v name).or
        ((VendorIndex.ofTable t v).keys.find? (includes name)) := by
  cases v <;> rfl

/-- The keys stand in their order, so the first one with the name in it comes before all others. -/
theorem find?_keys_eq_some_iff :
    (VendorIndex.ofTable t v).keys.find? (includes name) = some key ↔
      t.Builds v key ∧ name <:+: key ∧
        ∀ k, t.Builds v k → name <:+: k → k = key ∨ Before key k := by
  have sorted : (VendorIndex.ofTable t v).keys.Pairwise fun a b => a = b ∨ Before a b :=
    pairwise_shorterFirst _
  have first {key : Text} (h : (VendorIndex.ofTable t v).keys.find? (includes name) = some key) :
      t.Builds v key ∧ name <:+: key ∧
        ∀ k, t.Builds v k → name <:+: k → k = key ∨ Before key k := by
    obtain ⟨stands, before, after, split, earlier⟩ := List.find?_eq_some_iff_append.mp h
    refine ⟨mem_keys_ofTable.mp (List.mem_of_find?_eq_some h), includes_iff.mp stands,
      fun k built stands' => ?_⟩
    rw [← includes_iff] at stands'
    have place := mem_keys_ofTable.mpr built
    rw [split] at sorted place
    rcases List.mem_append.mp place with front | back
    · -- a key in front would have been found
      have missed := earlier k front
      rw [stands'] at missed
      cases missed
    · rcases List.mem_cons.mp back with same | later
      · exact .inl same
      · refine ((List.pairwise_cons.mp (List.pairwise_append.mp sorted).2.1).1 k later).imp_left ?_
        exact Eq.symm
  refine ⟨first, fun ⟨built, stands, least⟩ => ?_⟩
  cases found : (VendorIndex.ofTable t v).keys.find? (includes name) with
  | none =>
    have missed := List.find?_eq_none.mp found key (mem_keys_ofTable.mpr built)
    exact absurd (includes_iff.mpr stands) missed
  | some other =>
    obtain ⟨built', stands', least'⟩ := first found
    rcases least other built' stands' with same | before
    · rw [same]
    · rcases least' key built stands with same | after
      · rw [same]
      · exact absurd (before.trans after) (Before.irrefl key)

theorem find?_keys_eq_none_iff :
    (VendorIndex.ofTable t v).keys.find? (includes name) = none ↔
      ∀ k, t.Builds v k → ¬ name <:+: k := by
  simp only [List.find?_eq_none, mem_keys_ofTable, includes_iff]

theorem closest?_eq_some_iff :
    (LibraryIndex.ofTable t).closest? v name = some key ↔ t.Closest v name key := by
  have not_less {k : Text} : Key.lt k key = false ↔ k = key ∨ Key.lt key k = true := by
    constructor
    · intro not_before
      rcases Key.connex k key with before | same | after
      · rw [not_before] at before
        cases before
      · exact .inl same
      · exact .inr after
    · rintro (rfl | after)
      · exact Key.irrefl k
      · exact Key.asymm after
  rw [closest?_ofTable, Option.or_eq_some_iff, keyOf?_eq_some_iff, keyOf?_eq_none_iff,
    find?_keys_eq_some_iff]
  simp only [not_less]
  constructor
  · rintro (⟨offered, least⟩ | ⟨unnamed, built, stands, first⟩)
    · exact .named offered least
    · exact .within unnamed built stands first
  · rintro (⟨offered, least⟩ | ⟨unnamed, built, stands, first⟩)
    · exact .inl ⟨offered, least⟩
    · exact .inr ⟨unnamed, built, stands, first⟩

theorem Closest.builds (h : t.Closest v name key) : t.Builds v key := by
  cases h with
  | named offered _ => exact offered.builds
  | within _ built _ _ => exact built

theorem mem_libraries_resolve {p : Project} {x : Text} :
    x ∈ (p.resolve (LibraryIndex.ofTable t)).libraries ↔
      ∃ name, name ∈ p.libraries ∧ t.Closest p.vendor name x := by
  unfold Project.resolve
  simp only [KeySet.mem_ofList, List.mem_filterMap, KeySet.mem_toList, closest?_eq_some_iff]

/-- The index answers the key that a name means, with the exact name in front of any other key, and
nothing only where no key is meant; the libraries of a resolved project are those that its names
mean, and all are built for its vendor. -/
theorem closest_exact (t : LibraryTable) :
    (∀ v name key, (LibraryIndex.ofTable t).closest? v name = some key ↔ t.Closest v name key) ∧
    (∀ v name, (∃ k, t.Offers v name k) →
      (LibraryIndex.ofTable t).closest? v name = (LibraryIndex.ofTable t).keyOf? v name) ∧
    (∀ v name, (LibraryIndex.ofTable t).closest? v name = none ↔
      ∀ k, t.Builds v k → ¬ t.Offers v name k ∧ ¬ name <:+: k) ∧
    ∀ projects : ProjectTable, (projects.resolve t).keys = projects.keys ∧
      ∀ k p, projects.get? k = some p → ∃ libraries,
        (projects.resolve t).get? k = some { p with libraries } ∧
        (∀ x, x ∈ libraries ↔ ∃ name, name ∈ p.libraries ∧ t.Closest p.vendor name x) ∧
        ∀ x, x ∈ libraries → t.Builds p.vendor x := by
  refine ⟨fun v name key => closest?_eq_some_iff, fun v name named => ?_, fun v name => ?_,
    fun projects => ⟨?_, fun k p held => ?_⟩⟩
  · rw [closest?_ofTable]
    cases found : (LibraryIndex.ofTable t).keyOf? v name with
    | none =>
      obtain ⟨k, offered⟩ := named
      exact absurd offered (keyOf?_eq_none_iff.mp found k)
    | some key => rfl
  · rw [closest?_ofTable, Option.or_eq_none_iff, keyOf?_eq_none_iff, find?_keys_eq_none_iff]
    exact ⟨fun ⟨unnamed, apart⟩ k built => ⟨unnamed k, apart k built⟩,
      fun h => ⟨fun k offered => (h k offered.builds).1 offered, fun k built => (h k built).2⟩⟩
  · simp [ProjectTable.resolve, Table.keys, Table.mapValues, Function.comp_def]
  · refine ⟨(p.resolve (LibraryIndex.ofTable t)).libraries, ?_, fun x => mem_libraries_resolve,
      fun x hx => ?_⟩
    · unfold ProjectTable.resolve
      rw [Table.get?_mapValues, held]
      rfl
    · obtain ⟨name, -, meant⟩ := mem_libraries_resolve.mp hx
      exact meant.builds

/-- Two vendors' libraries of one name, of which one vendor's has the shorter key. -/
def packTable : LibraryTable := collect [
  ⟨"util_pack/util_cpack2", "util_cpack2", .xilinx, {}⟩, ⟨"axi_dmac", "axi_dmac", .xilinx, {}⟩,
  ⟨"intel/axi_dmac", "axi_dmac", .intel, {}⟩]

def packProjects : ProjectTable := .ofList [("dev/carrier", {
  name := "dev_carrier", vendor := .intel, libraries := .ofList ["dmac", "util_cpack2"] })]

theorem closest_exact_packTable :
    packTable.Closest .intel "axi_dmac" "intel/axi_dmac" ∧
      packTable.Closest .intel "dmac" "intel/axi_dmac" ∧
      (∀ k, packTable.Builds .intel k →
        ¬ packTable.Offers .intel "util_cpack2" k ∧ ¬ "util_cpack2".toList <:+: k) ∧
      ∃ p, (packProjects.resolve packTable).get? "dev/carrier" = some p ∧
        "intel/axi_dmac".toList ∈ p.libraries ∧
        ∀ x, x ∈ p.libraries → packTable.Builds .intel x := by
  obtain ⟨meant, -, absent, projects⟩ := closest_exact packTable
  have named : packTable.Closest .intel "axi_dmac" "intel/axi_dmac" :=
    (meant ..).mp (by decide +kernel)
  have within : packTable.Closest .intel "dmac" "intel/axi_dmac" :=
    (meant ..).mp (by decide +kernel)
  have listed : (packProjects.get? "dev/carrier").any
      (fun p => p.vendor = .intel ∧ p.libraries.contains "dmac" = true) = true := by
    decide +kernel
  obtain ⟨p, held, listed⟩ := (Option.any_eq_true ..).mp listed
  obtain ⟨vendor, listed⟩ := of_decide_eq_true listed
  obtain ⟨libraries, held', exact, built⟩ := (projects packProjects).2 "dev/carrier" p held
  rw [vendor] at exact built
  exact ⟨named, within, (absent ..).mp (by decide +kernel), _, held',
    (exact _).mpr ⟨"dmac", KeySet.contains_iff.mp listed, within⟩, built⟩

end LibraryTable

end Gateware
