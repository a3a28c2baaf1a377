import Gateware.Proofs.RegisterMap.Expansion
import Gateware.Proofs.RegisterMap.Invariant

/-!
# Recorded access tags

A group lists the access tags that its fields carry. Reading and expansion keep this list exact
(`RecordsTags`). Resolution also lists what an imported field says of its kind when the kind is
unknown, so the list stays exact as long as no such field is imported (`tagsRecorded_iff`). What
holds of the list after any events is `Group.TracesTags` (`run_traced`).
-/

namespace Gateware

open Text

/-- The tags that name a kind of access, and the one for what the hardware changes on its own. -/
def accessVocabulary : List Text := ["RO", "WO", "RW", "RW1C", "RW1S", "W1S", "V", "NA"]

/-- A volatile field carries a tag of its own beside that of its kind; an unknown kind has none. -/
def Access.Carries (a : Access) (tag : Text) : Prop :=
  a.volatile = true ∧ tag = "V" ∨ a.kind.isKnown = true ∧ tag = a.kind.tag

namespace Group

/-- A field of the group, be its register imported or not, is accessed so. -/
def Has (g : Group) (a : Access) : Prop :=
  ∃ r ∈ g.registers, ∃ f, Field.concrete f ∈ r.fields ∧ f.access = a

/-- The group lists the tags that its fields carry, each of them once, and no others. -/
structure RecordsTags (g : Group) : Prop where
  nodup : g.accessTypes.Nodup
  known : ∀ tag ∈ g.accessTypes, tag ∈ accessVocabulary
  mem_iff : ∀ tag, tag ∈ g.accessTypes ↔ ∃ a, g.Has a ∧ a.Carries tag

/-- The group lists the tags that its fields carry, each of them once. Another one that it lists is
that of an unknown kind, which reads as the kind of no other tag. -/
structure TracesTags (g : Group) : Prop where
  nodup : g.accessTypes.Nodup
  carried : ∀ a tag, g.Has a → a.Carries tag → tag ∈ g.accessTypes
  origin : ∀ tag ∈ g.accessTypes, ∃ a, g.Has a ∧ (a.Carries tag ∨ tag = a.kind.tag)
  kinds : ∀ a, g.Has a → AccessKind.ofTag a.kind.tag = a.kind

end Group

namespace RegisterMap

def TagsRecorded (t : MapTable) : Prop := ∀ m ∈ t.values, ∀ g ∈ m.groups, g.RecordsTags

def TagsTraced (t : MapTable) : Prop := ∀ m ∈ t.values, ∀ g ∈ m.groups, g.TracesTags

/-- No register that takes the place of an import in the group has a field of an unknown kind. -/
def ImportsKnownIn (t : MapTable) (g : Group) : Prop :=
  ∀ r, Register.imported r ∈ g.registers → ∀ s,
    (resolveRegister (exported? t) g.uses (.imported r)).register = .concrete s →
      ∀ f, Field.concrete f ∈ s.fields → f.access.kind.isKnown = true

def ImportsKnown (t : MapTable) : Prop := ∀ m ∈ t.values, ∀ g ∈ m.groups, ImportsKnownIn t g

/-- The table of the maps that are read from the lines under each key. -/
def described (sources : List (Text × List Text)) : MapTable :=
  run .empty (sources.map fun s => .describe s.1 s.2)

end RegisterMap

/-! ### Tags and kinds -/

theorem Access.Carries.mem_vocabulary {a : Access} {tag : Text} (h : a.Carries tag) :
    tag ∈ accessVocabulary := by
  rcases h with ⟨-, rfl⟩ | ⟨known, rfl⟩
  · decide
  · cases kind : a.kind with
    | unknown tag => rw [kind] at known; cases known
    | _ => decide

theorem AccessKind.ofTag_cases (tag : Text) :
    ofTag tag = .unknown tag ∨ (ofTag tag).isKnown = true := by
  unfold ofTag
  repeat' split
  all_goals first | exact .inl rfl | exact .inr rfl

theorem AccessKind.ofTag_tag_ofTag (tag : Text) : ofTag (ofTag tag).tag = ofTag tag := by
  rcases ofTag_cases tag with unknown | known
  · -- an unknown kind keeps the tag that it is read from
    exact congrArg (fun k => ofTag k.tag) unknown
  · exact kindOfTag_tag known

theorem Access.kind_ofTag (tag : Text) :
    AccessKind.ofTag (Access.ofTag tag).kind.tag = (Access.ofTag tag).kind := by
  unfold Access.ofTag
  split <;> exact AccessKind.ofTag_tag_ofTag _

/-- A kind whose tag is carried by a field is known. -/
theorem Access.known_of_carries {a b : Access} (ha : AccessKind.ofTag a.kind.tag = a.kind)
    (hb : AccessKind.ofTag b.kind.tag = b.kind) (h : a.Carries b.kind.tag) :
    b.kind.isKnown = true := by
  rcases h with ⟨-, same⟩ | ⟨known, same⟩
  · rw [← hb, same]
    rfl
  · rw [← hb, same, ha, known]

namespace RegisterMap

theorem mem_addTag {tags : List Text} {tag other : Text} :
    tag ∈ addTag tags other ↔ tag ∈ tags ∨ tag = other := by
  unfold addTag
  split
  · rename_i there
    rw [List.contains_iff_mem] at there
    exact ⟨.inl, fun h => h.elim id fun same => same ▸ there⟩
  · simp

theorem mem_foldl_addTag {tags more : List Text} {tag : Text} :
    tag ∈ more.foldl addTag tags ↔ tag ∈ tags ∨ tag ∈ more := by
  induction more generalizing tags with
  | nil => simp
  | cons other more ih => rw [List.foldl_cons, ih, mem_addTag, List.mem_cons, or_assoc]

theorem mem_accessTags {a : Access} {tag : Text} : tag ∈ accessTags a ↔ a.Carries tag := by
  unfold accessTags Access.Carries
  rw [List.mem_append]
  cases a.volatile <;> cases a.kind.isKnown <;> simp [AccessKind.tag]

theorem mem_importedTags {f : ConcreteField} {tag : Text} :
    tag ∈ importedTags (.concrete f) ↔ f.access.Carries tag ∨ tag = f.access.kind.tag := by
  unfold importedTags Access.Carries
  rw [List.mem_append, List.mem_singleton]
  constructor
  · rintro (volatile | same)
    · cases marked : f.access.volatile with
      | true => exact .inl (.inl ⟨rfl, by simpa [marked, AccessKind.tag] using volatile⟩)
      | false => simp [marked] at volatile
    · exact .inr same
  · rintro ((⟨marked, rfl⟩ | ⟨-, same⟩) | same)
    · exact .inl (by simp [marked, AccessKind.tag])
    · exact .inr same
    · exact .inr same

/-! ### Reading -/

/-- The tags that a declared field adds to its group. -/
def declaredTags : Field → List Text
  | .imported _ => []
  | .concrete f => accessTags f.access

theorem declaredTags_imports (content : List DescriptionLine) :
    (content.map fun l => Field.imported l.content).flatMap declaredTags = [] := by
  rw [List.flatMap_map]
  exact List.flatMap_eq_nil_iff.mpr fun l _ => rfl

theorem tags_readConcreteField (register first : Text) (rest : List DescriptionLine) :
    (readConcreteField register first rest).tags =
      (readConcreteField register first rest).fields.flatMap declaredTags := by
  unfold readConcreteField
  split
  · rfl
  simp only
  split
  · rfl
  split
  · exact (List.append_nil _).symm
  · rfl

/-- A block adds the tags of the fields that it gives. -/
theorem tags_readField (register : Text) (ls : List DescriptionLine) :
    (readField register ls).tags = (readField register ls).fields.flatMap declaredTags := by
  unfold readField
  split
  · unfold readFieldBody
    split
    · split
      · exact tags_readConcreteField register _ _
      · exact (declaredTags_imports _).symm
    · exact (declaredTags_imports _).symm
  · rfl

theorem fields_withFields (fields : List Field) (r : Register) :
    (withFields fields r).fields = fields := by
  cases r <;> rfl

theorem tags_readRegister (ls : List DescriptionLine) :
    (readRegister ls).tags =
      (readRegister ls).register.toList.flatMap fun r => r.fields.flatMap declaredTags := by
  unfold readRegister
  simp only
  split
  · rfl
  split
  · rfl
  · simp [fields_withFields, List.flatMap_assoc, List.flatMap_map, tags_readField]

/-- The accesses of a declared group, through the tags that its registers add. -/
theorem mem_declaredTags {g : Group} {tag : Text} :
    tag ∈ (g.registers.flatMap fun r => r.fields.flatMap declaredTags) ↔
      ∃ a, g.Has a ∧ a.Carries tag := by
  simp only [List.mem_flatMap, Group.Has]
  constructor
  · rintro ⟨r, hr, f, hf, mem⟩
    cases f with
    | imported name => cases mem
    | concrete f => exact ⟨f.access, ⟨r, hr, f, hf, rfl⟩, mem_accessTags.mp mem⟩
  · rintro ⟨a, ⟨r, hr, f, hf, rfl⟩, carries⟩
    exact ⟨r, hr, .concrete f, hf, mem_accessTags.mpr carries⟩

theorem accessTypes_readGroup {ls : List DescriptionLine} {g : Group}
    (h : (readGroup ls).1 = some g) :
    g.accessTypes =
      (g.registers.flatMap fun r => r.fields.flatMap declaredTags).foldl addTag [] := by
  unfold readGroup at h
  simp only at h
  split at h
  · cases h
    unfold readGroupBody
    simp only
    rw [List.filterMap_eq_flatMap_toList, List.flatMap_assoc, List.flatMap_map, List.flatMap_map]
    exact congrArg (List.foldl addTag [])
      (congrArg (List.flatMap · _) (funext tags_readRegister))
  · cases h

theorem mem_foldl_addBlock {blocks : List (List DescriptionLine)}
    {acc : List Group × List ParseWarning} {g : Group} (h : g ∈ (blocks.foldl addBlock acc).1) :
    g ∈ acc.1 ∨ ∃ block, (readGroup block).1 = some g := by
  induction blocks generalizing acc with
  | nil => exact .inl h
  | cons block blocks ih =>
    rcases ih h with before | read
    · unfold addBlock at before
      split at before
      · exact .inl before
      · rename_i other _ read
        rcases mem_addGroup before with rfl | old
        · exact .inr ⟨block, by rw [read]⟩
        · exact .inl old
    · exact .inr read

/-- Every group of a description is read from the lines of one block. -/
theorem readGroup_of_parse {lines : List Text} {g : Group} (h : g ∈ (parse lines).1.groups) :
    ∃ block, (readGroup block).1 = some g :=
  (@mem_foldl_addBlock _ ([], []) _ h).resolve_left List.not_mem_nil

theorem kinds_readField {register : Text} {ls : List DescriptionLine} {f : ConcreteField}
    (h : Field.concrete f ∈ (readField register ls).fields) :
    AccessKind.ofTag f.access.kind.tag = f.access.kind := by
  have imports {content : List DescriptionLine}
      (h : Field.concrete f ∈ content.map fun l => Field.imported l.content) : False := by
    obtain ⟨l, -, same⟩ := List.mem_map.mp h
    cases same
  unfold readField at h
  split at h
  · unfold readFieldBody at h
    split at h
    · split at h
      · unfold readConcreteField at h
        split at h
        · cases h
        simp only at h
        split at h
        · cases h
        split at h
        · obtain ⟨⟩ := List.mem_singleton.mp h
          exact Access.kind_ofTag _
        · cases h
      · exact (imports h).elim
    · exact (imports h).elim
  · cases h

theorem kinds_readGroup {ls : List DescriptionLine} {g : Group} (h : (readGroup ls).1 = some g)
    {a : Access} (ha : g.Has a) : AccessKind.ofTag a.kind.tag = a.kind := by
  obtain ⟨r, hr, f, hf, rfl⟩ := ha
  unfold readGroup at h
  simp only at h
  split at h
  · cases h
    obtain ⟨block, hb, same⟩ := List.mem_filterMap.mp hr
    obtain ⟨lines, -, rfl⟩ := List.mem_map.mp hb
    unfold readRegister at same
    simp only at same
    split at same
    · cases same
    split at same
    · cases same
    · cases same
      rw [fields_withFields] at hf
      obtain ⟨fields, hfields, hf⟩ := List.mem_flatMap.mp hf
      obtain ⟨lines, -, rfl⟩ := List.mem_map.mp hfields
      exact kinds_readField hf
  · cases h

/-- A group as it is read lists what its fields carry. -/
theorem readGroup_records {ls : List DescriptionLine} {g : Group} (h : (readGroup ls).1 = some g) :
    g.RecordsTags := by
  have exact (tag : Text) : tag ∈ g.accessTypes ↔ ∃ a, g.Has a ∧ a.Carries tag := by
    rw [accessTypes_readGroup h, mem_foldl_addTag, mem_declaredTags]
    exact ⟨fun mem => mem.resolve_left List.not_mem_nil, .inr⟩
  refine ⟨(readGroup_wellFormed h).accessTypes, fun tag mem => ?_, exact⟩
  obtain ⟨a, -, carries⟩ := (exact tag).mp mem
  exact carries.mem_vocabulary

end RegisterMap

/-! ### Exact lists and traced ones -/

namespace Group

theorem RecordsTags.traces {g : Group} (h : g.RecordsTags)
    (kinds : ∀ a, g.Has a → AccessKind.ofTag a.kind.tag = a.kind) : g.TracesTags where
  nodup := h.nodup
  carried := fun a tag ha carries => (h.mem_iff tag).mpr ⟨a, ha, carries⟩
  origin := fun tag mem =>
    have ⟨a, ha, carries⟩ := (h.mem_iff tag).mp mem
    ⟨a, ha, .inl carries⟩
  kinds

/-- A traced list is exact when it holds the tag of no unknown kind. -/
theorem TracesTags.records_iff {g : Group} (h : g.TracesTags) :
    g.RecordsTags ↔ ∀ a, g.Has a → a.kind.tag ∈ g.accessTypes → a.kind.isKnown = true := by
  constructor
  · intro records a ha mem
    obtain ⟨b, hb, carries⟩ := (records.mem_iff _).mp mem
    exact Access.known_of_carries (h.kinds b hb) (h.kinds a ha) carries
  · intro known
    have exact (tag : Text) : tag ∈ g.accessTypes ↔ ∃ a, g.Has a ∧ a.Carries tag := by
      refine ⟨fun mem => ?_, fun ⟨a, ha, carries⟩ => h.carried a tag ha carries⟩
      obtain ⟨a, ha, carries | rfl⟩ := h.origin tag mem
      · exact ⟨a, ha, carries⟩
      · exact ⟨a, ha, .inr ⟨known a ha mem, rfl⟩⟩
    refine ⟨h.nodup, fun tag mem => ?_, exact⟩
    obtain ⟨a, -, carries⟩ := (exact tag).mp mem
    exact carries.mem_vocabulary

/-- Groups with the same accesses that list the same tags trace them alike. -/
theorem TracesTags.congr {g g' : Group} (h : g.TracesTags) (types : g'.accessTypes = g.accessTypes)
    (same : ∀ a, g'.Has a ↔ g.Has a) : g'.TracesTags := by
  refine ⟨types ▸ h.nodup, ?_, ?_, fun a ha => h.kinds a ((same a).mp ha)⟩
  · intro a tag ha carries
    rw [types]
    exact h.carried a tag ((same a).mp ha) carries
  · intro tag mem
    rw [types] at mem
    obtain ⟨a, ha, source⟩ := h.origin tag mem
    exact ⟨a, (same a).mpr ha, source⟩

end Group

namespace RegisterMap

/-! ### Resolution -/

variable {exports : Text → Option (List ConcreteRegister)} {uses : List Text}

/-- A register stays as it is without adding tags, or takes the place of an import and adds what its
fields say. -/
theorem resolveRegister_cases (exports : Text → Option (List ConcreteRegister)) (uses : List Text)
    (r : Register) :
    (resolveRegister exports uses r).register = r ∧ (resolveRegister exports uses r).tags = [] ∨
      ∃ i s, r = .imported i ∧ (resolveRegister exports uses r).register = .concrete s ∧
        (resolveRegister exports uses r).tags = s.fields.flatMap importedTags := by
  cases r with
  | concrete r => exact .inl ⟨rfl, rfl⟩
  | imported i =>
    cases source : findImport? exports uses i with
    | none =>
      rw [resolveRegister_pending source]
      exact .inl ⟨rfl, rfl⟩
    | some origin =>
      rw [resolveRegister_replaced source]
      exact .inr ⟨i, _, rfl, rfl, rfl⟩

/-- The tags are those of the register that takes the place of an import. -/
theorem mem_tags_resolveRegister {r : Register} {tag : Text} :
    tag ∈ (resolveRegister exports uses r).tags ↔ ∃ i s f, r = .imported i ∧
      (resolveRegister exports uses r).register = .concrete s ∧ Field.concrete f ∈ s.fields ∧
      (f.access.Carries tag ∨ tag = f.access.kind.tag) := by
  rcases resolveRegister_cases exports uses r with ⟨same, none⟩ | ⟨i, s, rfl, place, tags⟩
  · rw [none]
    constructor
    · exact nofun
    · rintro ⟨i, s, f, rfl, place, -⟩
      rw [same] at place
      cases place
  · rw [tags, List.mem_flatMap]
    constructor
    · rintro ⟨f, hf, told⟩
      cases f with
      | imported name => cases told
      | concrete f => exact ⟨i, s, f, rfl, place, hf, mem_importedTags.mp told⟩
    · rintro ⟨_, s', f, -, place', hf, told⟩
      obtain ⟨⟩ := place.symm.trans place'
      exact ⟨.concrete f, hf, mem_importedTags.mpr told⟩

/-- A field that an import declares on its own stays in the register that takes its place. -/
theorem mem_fields_resolveRegister {r : Register} {f : ConcreteField}
    (h : Field.concrete f ∈ r.fields) :
    Field.concrete f ∈ (resolveRegister exports uses r).register.fields := by
  cases r with
  | concrete r => exact h
  | imported i =>
    cases source : findImport? exports uses i with
    | none =>
      rw [resolveRegister_pending source]
      exact h
    | some origin =>
      obtain ⟨group, d⟩ := origin
      have some_field : i.fields.isEmpty = false := by
        rw [List.isEmpty_eq_false_iff]
        exact List.ne_nil_of_mem h
      rw [resolveRegister_replaced source]
      show Field.concrete f ∈ (splice i d group).1.fields
      unfold splice
      simp only [some_field, Bool.false_eq_true, if_false, List.map_map]
      exact List.mem_map.mpr ⟨.concrete f, h, rfl⟩

theorem fields_resolveRegister_mem {t : MapTable} {uses : List Text} {r : Register}
    {f : ConcreteField}
    (h : Field.concrete f ∈ (resolveRegister (exported? t) uses r).register.fields) :
    Field.concrete f ∈ r.fields ∨
      ∃ m ∈ t.values, ∃ d ∈ m.concreteRegisters, Field.concrete f ∈ d.fields := by
  cases r with
  | concrete r => exact .inl h
  | imported i =>
    cases source : findImport? (exported? t) uses i with
    | none =>
      rw [resolveRegister_pending source] at h
      exact .inl h
    | some origin =>
      obtain ⟨group, d⟩ := origin
      obtain ⟨-, m, hm, hd⟩ := of_findImport? source
      rw [resolveRegister_replaced source] at h
      change Field.concrete f ∈ (splice i d group).1.fields at h
      unfold splice at h
      simp only at h
      split at h
      · exact .inr ⟨m, hm, d, hd, h⟩
      · obtain ⟨selected, chosen, same⟩ := List.mem_map.mp h
        obtain ⟨f', hf', rfl⟩ := List.mem_map.mp chosen
        rcases selectField_mem d group f' with own | copied
        · exact .inl ((own.symm.trans same) ▸ hf')
        · exact .inr ⟨m, hm, d, hd, same ▸ copied⟩

theorem mem_accessTypes_resolveGroup {g : Group} {tag : Text} :
    tag ∈ (resolveGroup exports g).1.accessTypes ↔
      tag ∈ g.accessTypes ∨ ∃ r ∈ g.registers, tag ∈ (resolveRegister exports g.uses r).tags := by
  unfold resolveGroup
  rw [mem_foldl_addTag, List.flatMap_map, List.mem_flatMap]

theorem has_resolveGroup_iff {g : Group} {a : Access} :
    (resolveGroup exports g).1.Has a ↔ ∃ r ∈ g.registers, ∃ f,
      Field.concrete f ∈ (resolveRegister exports g.uses r).register.fields ∧ f.access = a := by
  constructor
  · rintro ⟨r', hr', f, hf, same⟩
    obtain ⟨resolved, chosen, rfl⟩ := List.mem_map.mp hr'
    obtain ⟨r, hr, rfl⟩ := List.mem_map.mp chosen
    exact ⟨r, hr, f, hf, same⟩
  · rintro ⟨r, hr, f, hf, same⟩
    exact ⟨_, List.mem_map_of_mem (List.mem_map_of_mem hr), f, hf, same⟩

theorem has_resolveGroup {g : Group} {a : Access} (h : g.Has a) :
    (resolveGroup exports g).1.Has a := by
  obtain ⟨r, hr, f, hf, same⟩ := h
  exact has_resolveGroup_iff.mpr ⟨r, hr, f, mem_fields_resolveRegister hf, same⟩

theorem resolveGroup_traces {t : MapTable} (h : TagsTraced t) {g : Group} (hg : g.TracesTags) :
    (resolveGroup (exported? t) g).1.TracesTags := by
  refine ⟨nodup_foldl_addTag hg.nodup _, ?_, ?_, ?_⟩
  · intro a tag ha carries
    obtain ⟨r, hr, f, hf, rfl⟩ := has_resolveGroup_iff.mp ha
    rw [mem_accessTypes_resolveGroup]
    rcases resolveRegister_cases (exported? t) g.uses r with ⟨same, -⟩ | ⟨i, s, imported, place, -⟩
    · rw [same] at hf
      exact .inl (hg.carried _ tag ⟨r, hr, f, hf, rfl⟩ carries)
    · rw [place] at hf
      exact .inr ⟨r, hr, mem_tags_resolveRegister.mpr ⟨i, s, f, imported, place, hf, .inl carries⟩⟩
  · intro tag mem
    rcases mem_accessTypes_resolveGroup.mp mem with before | ⟨r, hr, added⟩
    · obtain ⟨a, ha, source⟩ := hg.origin tag before
      exact ⟨a, has_resolveGroup ha, source⟩
    · obtain ⟨i, s, f, -, place, hf, told⟩ := mem_tags_resolveRegister.mp added
      refine ⟨f.access, has_resolveGroup_iff.mpr ⟨r, hr, f, ?_, rfl⟩, told⟩
      rw [place]
      exact hf
  · intro a ha
    obtain ⟨r, hr, f, hf, rfl⟩ := has_resolveGroup_iff.mp ha
    rcases fields_resolveRegister_mem hf with own | ⟨m, hm, d, hd, copied⟩
    · exact hg.kinds _ ⟨r, hr, f, own, rfl⟩
    · obtain ⟨source, hsource, inside⟩ := mem_concreteRegisters.mp hd
      exact (h m hm source hsource).kinds _ ⟨.concrete d, inside, f, copied, rfl⟩

/-- After resolution the list of a group is exact when nothing of an unknown kind was imported. -/
theorem resolveGroup_records_iff {t : MapTable} (h : TagsTraced t) {g : Group} (hg : g.TracesTags)
    (records : g.RecordsTags) :
    (resolveGroup (exported? t) g).1.RecordsTags ↔ ImportsKnownIn t g := by
  rw [(resolveGroup_traces h hg).records_iff]
  constructor
  · intro known i hi s place f hf
    refine known f.access (has_resolveGroup_iff.mpr ⟨.imported i, hi, f, ?_, rfl⟩) ?_
    · rw [place]
      exact hf
    · have added := mem_tags_resolveRegister.mpr ⟨i, s, f, rfl, place, hf, .inr rfl⟩
      exact mem_accessTypes_resolveGroup.mpr (.inr ⟨.imported i, hi, added⟩)
  · intro known a ha mem
    -- the tag came from a declared field, or an import brought it along with its kind
    have read {b : Access} (hb : (resolveGroup (exported? t) g).1.Has b)
        (carries : b.Carries a.kind.tag) : a.kind.isKnown = true :=
      Access.known_of_carries ((resolveGroup_traces h hg).kinds b hb)
        ((resolveGroup_traces h hg).kinds a ha) carries
    rcases mem_accessTypes_resolveGroup.mp mem with before | ⟨r, hr, added⟩
    · obtain ⟨b, hb, carries⟩ := (records.mem_iff _).mp before
      exact read (has_resolveGroup hb) carries
    · obtain ⟨i, s, f, rfl, place, hf, told⟩ := mem_tags_resolveRegister.mp added
      have inside : (resolveGroup (exported? t) g).1.Has f.access := by
        refine has_resolveGroup_iff.mpr ⟨.imported i, hr, f, ?_, rfl⟩
        rw [place]
        exact hf
      rcases told with carries | same
      · exact read inside carries
      · exact read inside (.inr ⟨known i hr s place f hf, same⟩)

/-! ### Expansion -/

/-- The fields that take the place of a declared one are accessed as it is. -/
theorem access_of_mem_expandField {c c' : ConcreteField}
    (h : Field.concrete c' ∈ expandField (.concrete c)) : c'.access = c.access := by
  rcases of_mem_expandField h with ⟨same, -⟩ | ⟨c'', n, same, at_n⟩
  · rw [Field.concrete.inj same]
  · rw [Field.concrete.inj at_n, Field.concrete.inj same]
    rfl

theorem exists_mem_expandField (c : ConcreteField) :
    ∃ c', Field.concrete c' ∈ expandField (.concrete c) := by
  unfold expandField
  simp only
  split
  · rename_i r _
    split
    · exact ⟨c, List.mem_singleton.mpr rfl⟩
    · rename_i some_index
      have first := IndexRange.isEmpty_eq_false_iff.mp (by simpa using some_index)
      refine ⟨fieldAt c r.first, List.mem_map_of_mem ?_⟩
      rw [IndexRange.indices, List.mem_range'_1, IndexRange.length]
      omega
  · exact ⟨c, List.mem_singleton.mpr rfl⟩

theorem has_expandGroup_iff {g : Group} {a : Access} : (expandGroup g).Has a ↔ g.Has a := by
  constructor
  · rintro ⟨r', hr', f, hf, rfl⟩
    obtain ⟨r, hr, rfl⟩ := List.mem_map.mp hr'
    cases r with
    | imported i => exact ⟨.imported i, hr, f, hf, rfl⟩
    | concrete d =>
      obtain ⟨f', hf', expanded⟩ := List.mem_flatMap.mp hf
      cases f' with
      | imported name => cases List.mem_singleton.mp expanded
      | concrete c => exact ⟨.concrete d, hr, c, hf', (access_of_mem_expandField expanded).symm⟩
  · rintro ⟨r, hr, f, hf, rfl⟩
    cases r with
    | imported i => exact ⟨.imported i, List.mem_map_of_mem hr, f, hf, rfl⟩
    | concrete d =>
      obtain ⟨f', expanded⟩ := exists_mem_expandField f
      exact ⟨_, List.mem_map_of_mem hr, f', List.mem_flatMap.mpr ⟨_, hf, expanded⟩,
        access_of_mem_expandField expanded⟩

theorem expandGroup_records_iff {g : Group} : (expandGroup g).RecordsTags ↔ g.RecordsTags := by
  have exact : (∀ tag, tag ∈ (expandGroup g).accessTypes ↔
      ∃ a, (expandGroup g).Has a ∧ a.Carries tag) ↔
        ∀ tag, tag ∈ g.accessTypes ↔ ∃ a, g.Has a ∧ a.Carries tag := by
    simp only [has_expandGroup_iff]
    rfl
  exact ⟨fun h => ⟨h.nodup, h.known, exact.mp h.mem_iff⟩,
    fun h => ⟨h.nodup, h.known, exact.mpr h.mem_iff⟩⟩

theorem expandGroup_traces {g : Group} (h : g.TracesTags) : (expandGroup g).TracesTags :=
  h.congr rfl fun _ => has_expandGroup_iff

theorem expand_traces {m m' : RegisterMap} (h : ∀ g ∈ m.groups, g.TracesTags)
    (expanded : m.expand = .ok m') : ∀ g ∈ m'.groups, g.TracesTags := by
  by_cases pending : m.pending = []
  · rw [expand_of_resolved pending] at expanded
    obtain rfl := Except.ok.inj expanded
    intro g hg
    obtain ⟨g', hg', rfl⟩ := List.mem_map.mp hg
    exact expandGroup_traces (h g' hg')
  · rw [expand_of_pending pending] at expanded
    cases expanded

/-! ### Tables -/

theorem parse_records (lines : List Text) : ∀ g ∈ (parse lines).1.groups, g.RecordsTags := by
  intro g hg
  obtain ⟨block, read⟩ := readGroup_of_parse hg
  exact readGroup_records read

theorem parse_traces (lines : List Text) : ∀ g ∈ (parse lines).1.groups, g.TracesTags := by
  intro g hg
  obtain ⟨block, read⟩ := readGroup_of_parse hg
  exact (readGroup_records read).traces fun a => kinds_readGroup read

theorem resolve_groups_iff {P : Group → Prop} (t : MapTable) :
    (∀ m ∈ (resolve t).values, ∀ g ∈ m.groups, P g) ↔
      ∀ m ∈ t.values, ∀ g ∈ m.groups, P (resolveGroup (exported? t) g).1 := by
  rw [values_resolve]
  simp only [List.forall_mem_map, resolveMap]

theorem resolve_traces {t : MapTable} (h : TagsTraced t) : TagsTraced (resolve t) :=
  (resolve_groups_iff t).mpr fun m hm g hg => resolveGroup_traces h (h m hm g hg)

theorem resolve_records_iff {t : MapTable} (traced : TagsTraced t) (h : TagsRecorded t) :
    TagsRecorded (resolve t) ↔ ImportsKnown t := by
  have each (m) (hm : m ∈ t.values) (g) (hg : g ∈ m.groups) :=
    resolveGroup_records_iff traced (traced m hm g hg) (h m hm g hg)
  unfold TagsRecorded ImportsKnown
  rw [resolve_groups_iff]
  exact ⟨fun all m hm g hg => (each m hm g hg).mp (all m hm g hg),
    fun all m hm g hg => (each m hm g hg).mpr (all m hm g hg)⟩

theorem expandAll_traces {t : MapTable} (h : TagsTraced t) : TagsTraced (expandAll t) := by
  intro m hm
  obtain ⟨_, m', hm', rfl⟩ := Table.mem_values_mapValues hm
  split
  · rename_i expanded result
    exact expand_traces (h m' hm') result
  · exact h m' hm'

theorem expandAll_records_iff {t : MapTable} : TagsRecorded (expandAll t) ↔ TagsRecorded t :=
  groups_expandAll_iff (fun _ => expandGroup_records_iff) t

theorem step_traces {t : MapTable} (h : TagsTraced t) (e : Event) : TagsTraced (step t e) := by
  cases e with
  | describe key lines =>
    intro m hm
    rcases Table.mem_values_insert hm with rfl | old
    · exact parse_traces lines
    · exact h m old
  | remove key => exact fun m hm => h m (Table.mem_values_erase hm)
  | own key page =>
    intro m hm
    obtain ⟨_, m', hm', rfl⟩ := Table.mem_values_mapValues hm
    split <;> exact h m' hm'
  | resolve => exact resolve_traces h
  | expandAll => exact expandAll_traces h
  | expand key =>
    show TagsTraced (expandKey t key)
    unfold expandKey
    split
    · exact h
    · rename_i m' present
      split
      · rename_i expanded result
        intro m hm
        rcases Table.mem_values_insert hm with rfl | old
        · exact expand_traces (h m' (Table.mem_values_of_get? present)) result
        · exact h m old
      · exact h

/-- After any events, every group lists what its fields carry, and nothing but what one of its
fields says of its kind. -/
theorem run_traced (events : List Event) : TagsTraced (run .empty events) := by
  have kept (t : MapTable) (h : TagsTraced t) : TagsTraced (run t events) := by
    induction events generalizing t with
    | nil => exact h
    | cons e events ih => exact ih _ (step_traces h e)
  exact kept .empty fun m hm => nomatch hm

theorem described_records (sources : List (Text × List Text)) :
    TagsRecorded (described sources) := by
  have kept (t : MapTable) (h : TagsRecorded t) :
      TagsRecorded (run t (sources.map fun s => .describe s.1 s.2)) := by
    induction sources generalizing t with
    | nil => exact h
    | cons s sources ih =>
      refine ih _ fun m hm => ?_
      rcases Table.mem_values_insert hm with rfl | old
      · exact parse_records s.2
      · exact h m old
  exact kept .empty fun m hm => nomatch hm

/-- The groups of described maps list exactly what their fields carry, as they are read and
expanded. They still do after resolution, and after expansion then, as long as no field of an
unknown kind is imported; in any case all that is carried is listed, and each tag is one that a
field has. -/
theorem tagsRecorded_iff (sources : List (Text × List Text)) :
    let t := described sources
    TagsRecorded t ∧ TagsRecorded (expandAll t) ∧
      (TagsRecorded (resolve t) ↔ ImportsKnown t) ∧
      (TagsRecorded (expandAll (resolve t)) ↔ ImportsKnown t) ∧
      TagsTraced (resolve t) ∧ TagsTraced (expandAll (resolve t)) := by
  intro t
  have traced : TagsTraced t := run_traced _
  have records : TagsRecorded t := described_records sources
  have resolved := resolve_records_iff traced records
  refine ⟨records, expandAll_records_iff.mpr records, resolved,
    expandAll_records_iff.trans resolved, resolve_traces traced, ?_⟩
  exact expandAll_traces (resolve_traces traced)

/-- A field with a tag of no known kind, in a register that another group imports. -/
def unknownTagSources : List (Text × List Text) := [
  ("core", ["TITLE", "Core", "core", "ENDTITLE", "REG", "0x0", "CTRL", "ENDREG",
    "FIELD", "[3:0] 0x0", "MODE", "RX", "ENDFIELD"]),
  ("timer", ["TITLE", "USING core", "Timer", "timer", "ENDTITLE", "REG", "CTRL", "ENDREG"])]

/-- The tag is listed where the register is imported, and not where it is declared. -/
theorem not_tagsRecorded_unknownTagSources :
    let t := described unknownTagSources
    (t.values.flatMap RegisterMap.groups).map Group.accessTypes = [[], []] ∧
      ((resolve t).values.flatMap RegisterMap.groups).map Group.accessTypes =
        [[], [String.toList "RX"]] ∧ ¬ TagsRecorded (resolve t) := by
  intro t
  have listed : ∃ m ∈ (resolve t).values, ∃ g ∈ m.groups, ∃ tag ∈ g.accessTypes,
      tag ∉ accessVocabulary := by decide +kernel
  refine ⟨by decide +kernel, by decide +kernel, fun records => ?_⟩
  obtain ⟨m, hm, g, hg, tag, mem, unknown⟩ := listed
  exact unknown ((records m hm g hg).known tag mem)

end RegisterMap

end Gateware
