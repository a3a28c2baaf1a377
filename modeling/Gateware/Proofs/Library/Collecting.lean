import Gateware.Proofs.Library.Closest
import Gateware.Proofs.Sorted.Table
import Mathlib.Data.List.Pairwise

/-!
# Collecting manifests

The manifests of one directory make one library, which has the name of the first of them. A manifest
is found under its own name when the manifests of a directory agree on the name, and only then
does the order in which they come not matter (`collect_agrees_iff`).
-/

namespace Gateware

open Text

namespace LibraryTable

/-- Two manifests of one vendor share their directory or their name. -/
def Clash (m n : ParsedManifest) : Prop :=
  m.vendor = n.vendor ∧ (m.key = n.key ∨ m.ipName = n.ipName)

def Distinct (parsed : List ParsedManifest) : Prop := parsed.Pairwise fun m n => ¬ Clash m n

/-- The manifests of a directory give it one name. -/
def Agree (parsed : List ParsedManifest) : Prop :=
  ∀ m ∈ parsed, ∀ n ∈ parsed, m.key = n.key → m.ipName = n.ipName

def name? (t : LibraryTable) (key : Text) : Option Text := (t.get? key).map (·.name)

variable {t : LibraryTable} {v : Vendor} {name key : Text} {parsed : List ParsedManifest}

theorem offers_iff_builds : t.Offers v name key ↔ t.Builds v key ∧ t.name? key = some name := by
  unfold Offers Builds name?
  constructor
  · rintro ⟨l, held, built, rfl⟩
    exact ⟨⟨l, held, built⟩, by rw [held]; rfl⟩
  · rintro ⟨⟨l, held, built⟩, named⟩
    rw [held] at named
    exact ⟨l, held, built, Option.some.inj named⟩

/-! ### One manifest -/

theorem name?_add (t : LibraryTable) (m : ParsedManifest) (key : Text) :
    (t.add m).name? key =
      if m.key = key then some ((t.name? key).getD m.ipName) else t.name? key := by
  unfold name? add
  simp only [Table.get?_insert, Key.same_iff]
  by_cases here : m.key = key
  · subst here
    cases t.get? m.key <;> simp
  · rw [if_neg (Ne.symm here), if_neg here]

theorem builds_add {m : ParsedManifest} :
    (t.add m).Builds v key ↔ m.key = key ∧ m.vendor = v ∨ t.Builds v key := by
  unfold Builds add
  simp only [Table.get?_insert, Key.same_iff]
  by_cases here : m.key = key
  · subst here
    simp only [if_true, Option.some.injEq, exists_eq_left', Table.contains, Table.get?_insert,
      Key.same_iff, true_and]
    by_cases own : m.vendor = v
    · simp [own]
    · rw [if_neg (Ne.symm own)]
      cases t.get? m.key <;> simp [own]
  · rw [if_neg (Ne.symm here)]
    simp [here]

/-- Two manifests of one library under one name, or of two libraries, can be added in either
order. -/
theorem add_comm {m n : ParsedManifest}
    (apart : m.key = n.key → m.vendor ≠ n.vendor ∧ m.ipName = n.ipName) (t : LibraryTable) :
    (t.add m).add n = (t.add n).add m := by
  by_cases same : m.key = n.key
  · obtain ⟨vendors, names⟩ := apart same
    unfold add
    simp only [same, names, Table.get?_insert, Key.same_iff, if_true, Option.getD_some,
      Table.insert_insert, Table.insert_comm vendors]
  · have kept (l : Library) : (t.insert m.key l).get? n.key = t.get? n.key := by
      rw [Table.get?_insert, if_neg (Key.same_iff.not.mpr (Ne.symm same))]
    have kept' (l : Library) : (t.insert n.key l).get? m.key = t.get? m.key := by
      rw [Table.get?_insert, if_neg (Key.same_iff.not.mpr same)]
    unfold add
    simp only [kept, kept', Table.insert_comm same]

/-! ### All manifests -/

theorem name?_foldl_add (parsed : List ParsedManifest) (t : LibraryTable) (key : Text) :
    (parsed.foldl add t).name? key =
      (t.name? key).or ((parsed.find? (·.key == key)).map (·.ipName)) := by
  induction parsed generalizing t with
  | nil => simp
  | cons m parsed ih =>
    rw [List.foldl_cons, ih, name?_add, List.find?_cons]
    by_cases here : m.key = key
    · cases t.name? key <;> simp [here]
    · rw [if_neg here, beq_eq_false_iff_ne.mpr here]

theorem name?_collect (parsed : List ParsedManifest) (key : Text) :
    (collect parsed).name? key = (parsed.find? (·.key == key)).map (·.ipName) :=
  name?_foldl_add parsed .empty key

theorem builds_foldl_add :
    (parsed.foldl add t).Builds v key ↔
      (∃ m ∈ parsed, m.key = key ∧ m.vendor = v) ∨ t.Builds v key := by
  induction parsed generalizing t with
  | nil => simp
  | cons m parsed ih =>
    rw [List.foldl_cons, ih, builds_add, List.exists_mem_cons_iff, or_assoc, or_left_comm]

theorem builds_collect :
    (collect parsed).Builds v key ↔ ∃ m ∈ parsed, m.key = key ∧ m.vendor = v := by
  have none : ¬ Builds .empty v key := fun ⟨_, held, _⟩ => nomatch held
  exact builds_foldl_add.trans (or_iff_left none)

theorem name?_of_mem (agree : Agree parsed) {m : ParsedManifest} (h : m ∈ parsed) :
    (collect parsed).name? m.key = some m.ipName := by
  rw [name?_collect]
  cases found : parsed.find? (·.key == m.key) with
  | none => exact absurd (beq_self_eq_true m.key) (List.find?_eq_none.mp found m h)
  | some n =>
    have same : n.key = m.key := eq_of_beq (List.find?_some found :)
    exact congrArg some (agree n (List.mem_of_find?_eq_some found) m h same)

theorem Distinct.eq {m n : ParsedManifest} (distinct : Distinct parsed) (hm : m ∈ parsed)
    (hn : n ∈ parsed) (clash : Clash m n) : m = n := by
  have symm : Std.Symm fun m n => ¬ Clash m n :=
    ⟨fun m n apart clash => apart ⟨clash.1.symm, clash.2.imp Eq.symm Eq.symm⟩⟩
  by_contra other
  exact List.Pairwise.forall distinct hm hn other clash

theorem keyOf?_of_agree (distinct : Distinct parsed) (agree : Agree parsed) {m : ParsedManifest}
    (h : m ∈ parsed) :
    (LibraryIndex.ofTable (collect parsed)).keyOf? m.vendor m.ipName = some m.key := by
  refine keyOf?_eq_some_iff.mpr ⟨offers_iff_builds.mpr
    ⟨builds_collect.mpr ⟨m, h, rfl, rfl⟩, name?_of_mem agree h⟩, fun k offered => ?_⟩
  -- another library of the vendor with the name would have the same manifest
  obtain ⟨built, named⟩ := offers_iff_builds.mp offered
  obtain ⟨n, hn, rfl, vendor⟩ := builds_collect.mp built
  rw [name?_of_mem agree hn] at named
  rw [distinct.eq hn h ⟨vendor, .inr (Option.some.inj named)⟩]
  exact Key.irrefl m.key

theorem collect_perm (distinct : Distinct parsed) (agree : Agree parsed)
    {other : List ParsedManifest} (perm : other.Perm parsed) : collect other = collect parsed := by
  refine perm.foldl_eq' (fun m hm n hn t => ?_) Table.empty
  replace hm := perm.mem_iff.mp hm
  replace hn := perm.mem_iff.mp hn
  by_cases same : m = n
  · rw [same]
  · exact add_comm (fun key => ⟨fun vendor => same (distinct.eq hm hn ⟨vendor, .inl key⟩),
      agree m hm n hn key⟩) t

/-- A manifest that comes first names its library. -/
theorem agree_of_perm
    (h : ∀ other : List ParsedManifest, other.Perm parsed → collect other = collect parsed) :
    Agree parsed := by
  have first {m : ParsedManifest} (hm : m ∈ parsed) :
      (collect parsed).name? m.key = some m.ipName := by
    obtain ⟨front, back, rfl⟩ := List.append_of_mem hm
    rw [← h (m :: (front ++ back)) List.perm_middle.symm, name?_collect]
    simp
  intro m hm n hn key
  rw [← Option.some_inj, ← first hm, ← first hn, key]

/-- All manifests are found under their own names exactly when those of one directory agree on the
name, and exactly then every order of the manifests gives the same table. -/
theorem collect_agrees_iff (distinct : Distinct parsed) :
    ((∀ m ∈ parsed, (LibraryIndex.ofTable (collect parsed)).keyOf? m.vendor m.ipName = some m.key) ↔
      Agree parsed) ∧
    ((∀ other : List ParsedManifest, other.Perm parsed → collect other = collect parsed) ↔
      Agree parsed) := by
  refine ⟨⟨fun found m hm n hn key => ?_, fun agree m => keyOf?_of_agree distinct agree⟩,
    ⟨agree_of_perm, fun agree other => collect_perm distinct agree⟩⟩
  have named {m : ParsedManifest} (hm : m ∈ parsed) :
      (collect parsed).name? m.key = some m.ipName :=
    (offers_iff_builds.mp (keyOf?_eq_some_iff.mp (found m hm)).1).2
  rw [← Option.some_inj, ← named hm, ← named hn, key]

/-- A core that both vendors build, beside a library of one of them. -/
def agreeingManifests : List ParsedManifest := [
  ⟨"ip/core", "core", .xilinx, {}⟩, ⟨"util", "util", .intel, {}⟩, ⟨"ip/core", "core", .intel, {}⟩]

theorem collect_agrees_iff_agreeingManifests :
    Distinct agreeingManifests ∧ Agree agreeingManifests ∧
      (LibraryIndex.ofTable (collect agreeingManifests)).keyOf? .intel "core" = some "ip/core" ∧
      collect agreeingManifests.reverse = collect agreeingManifests := by
  have distinct : Distinct agreeingManifests := by
    unfold Distinct Clash
    decide
  have agree : Agree agreeingManifests := by
    unfold Agree
    decide
  obtain ⟨found, order⟩ := collect_agrees_iff distinct
  refine ⟨distinct, agree, ?_, order.mpr agree _ (List.reverse_perm _)⟩
  exact found.mpr agree ⟨"ip/core", "core", .intel, {}⟩ (by simp [agreeingManifests])

/-- A directory in which the vendors' manifests are named differently. -/
def mixedManifests : List ParsedManifest := [
  ⟨"core", "core", .xilinx, {}⟩, ⟨"core", "other", .intel, {}⟩]

/-- The second manifest is not found under its own name, and the table depends on the order. -/
theorem not_found_mixedManifests :
    Distinct mixedManifests ∧
      ¬ (∀ m ∈ mixedManifests,
        (LibraryIndex.ofTable (collect mixedManifests)).keyOf? m.vendor m.ipName = some m.key) ∧
      ¬ ∀ other : List ParsedManifest, other.Perm mixedManifests →
        collect other = collect mixedManifests := by
  refine ⟨by unfold Distinct Clash; decide, fun found => ?_, fun same => ?_⟩
  · have second := found ⟨"core", "other", .intel, {}⟩ (by simp [mixedManifests])
    exact absurd second (by decide +kernel)
  · have name := congrArg (·.name? "core") (same mixedManifests.reverse (List.reverse_perm _))
    exact absurd name (by decide +kernel)

end LibraryTable

end Gateware
