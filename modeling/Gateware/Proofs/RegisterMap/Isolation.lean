import Gateware.Proofs.RegisterMap.Cursor
import Gateware.Proofs.RegisterMap.Invariant

/-!
# Blocks are read apart

The lines of a description are cut at its title lines (`titleBlocks`), and the map is put together
from what each block gives when it stands alone (`Joins`), so nothing malformed in one block reaches
another (`parse_isolated`).
-/

namespace Gateware.RegisterMap

open Text

def titleLine : Text := "TITLE"

/-- The lines before the first title line, and the blocks that the title lines begin. -/
def titleBlocks : List Text → List Text × List (List Text)
  | [] => ([], [])
  | l :: ls =>
    let (lead, blocks) := titleBlocks ls
    if l = titleLine then ([], (l :: lead) :: blocks) else (l :: lead, blocks)

/-- What blocks give together: the group of a block takes the place of one with its name, which is
told after the warnings of the block, and stands at the end when there is none. -/
inductive Joins : (blocks : List (RegisterMap × List ParseWarning)) →
    (groups : List Group) → (warnings : List ParseWarning) → Prop
  | nil : Joins [] [] []
  | none {blocks : List (RegisterMap × List ParseWarning)} {groups : List Group}
      {warnings own : List ParseWarning} {m : RegisterMap} (before : Joins blocks groups warnings)
      (gives : m.groups = []) : Joins (blocks ++ [(m, own)]) groups (warnings ++ own)
  | replaces {blocks : List (RegisterMap × List ParseWarning)} {front back : List Group}
      {old g : Group} {warnings own : List ParseWarning} {m : RegisterMap}
      (before : Joins blocks (front ++ old :: back) warnings) (gives : m.groups = [g])
      (same : old.name = g.name) :
      Joins (blocks ++ [(m, own)]) (front ++ g :: back)
        (warnings ++ own ++ [.duplicateTitle g.name])
  | appends {blocks : List (RegisterMap × List ParseWarning)} {groups : List Group} {g : Group}
      {warnings own : List ParseWarning} {m : RegisterMap} (before : Joins blocks groups warnings)
      (gives : m.groups = [g]) (new : ∀ old ∈ groups, old.name ≠ g.name) :
      Joins (blocks ++ [(m, own)]) (groups ++ [g]) (warnings ++ own)

/-! ### The cut -/

theorem flatten_titleBlocks (lines : List Text) :
    (titleBlocks lines).1 ++ (titleBlocks lines).2.flatten = lines := by
  induction lines with
  | nil => rfl
  | cons l ls ih => by_cases h : l = titleLine <;> simp [titleBlocks, h, ih]

theorem title_not_mem_lead (lines : List Text) : titleLine ∉ (titleBlocks lines).1 := by
  induction lines with
  | nil => simp [titleBlocks]
  | cons l ls ih =>
    by_cases h : l = titleLine
    · simp [titleBlocks, h]
    · simpa [titleBlocks, h, Ne.symm h] using ih

theorem shape_of_mem_titleBlocks {lines b : List Text} (h : b ∈ (titleBlocks lines).2) :
    ∃ body, b = titleLine :: body ∧ titleLine ∉ body := by
  induction lines with
  | nil => cases h
  | cons l ls ih =>
    by_cases title : l = titleLine
    · simp only [titleBlocks, title, if_true] at h
      rcases List.mem_cons.mp h with rfl | h
      · exact ⟨_, rfl, title_not_mem_lead ls⟩
      · exact ih h
    · simp only [titleBlocks, title, if_false] at h
      exact ih h

/-! ### One block alone -/

/-- The lines that count, as what they say. -/
def tokens (ls : List Text) : List DescriptionLine :=
  (ls.filter fun l => !l.isEmpty).map DescriptionLine.ofText

theorem tokens_append (ls ls' : List Text) : tokens (ls ++ ls') = tokens ls ++ tokens ls' := by
  simp [tokens]

theorem parse_eq_ofDescription (ls : List Text) : parse ls = ofDescription (tokens ls) := by
  unfold parse
  rw [DescriptionLine.number_map_snd]
  rfl

/-- A line is read as a keyword only where it is written. -/
theorem ofText_eq_iff {k : DescriptionLine} (keyword : k.isKeyword = true) {l : Text} :
    DescriptionLine.ofText l = k ↔ l = k.written := by
  constructor
  · rintro rfl
    unfold DescriptionLine.ofText at keyword ⊢
    repeat' split at keyword
    all_goals first | (simp only [*]; rfl) | cases keyword
  · rintro rfl
    cases k <;> first | rfl | cases keyword

theorem not_mem_tokens {k : DescriptionLine} (keyword : k.isKeyword = true) {ls : List Text}
    (h : k.written ∉ ls) : k ∉ tokens ls := by
  intro mem
  obtain ⟨l, hl, token⟩ := List.mem_map.mp mem
  exact h ((ofText_eq_iff keyword).mp token ▸ (List.mem_filter.mp hl).1)

theorem tokens_title (body : List Text) : tokens (titleLine :: body) = .title :: tokens body := rfl

/-- A list of lines gives what its blocks give, one after the other. -/
theorem parse_blocks (lead : List Text) (bodies : List (List Text)) (hlead : titleLine ∉ lead)
    (hbodies : ∀ body ∈ bodies, titleLine ∉ body) :
    parse (lead ++ bodies.flatMap (titleLine :: ·)) =
      (⟨((bodies.map tokens).foldl addBlock ([], [])).1, none, .empty⟩,
        ((bodies.map tokens).foldl addBlock ([], [])).2) := by
  have parts : tokens (lead ++ bodies.flatMap (titleLine :: ·)) =
      tokens lead ++ bodies.flatMap fun body => .title :: tokens body := by
    rw [tokens_append]
    congr 1
    induction bodies with
    | nil => rfl
    | cons body bodies ih =>
      rw [List.flatMap_cons, tokens_append, tokens_title, List.flatMap_cons,
        ih fun b hb => hbodies b (List.mem_cons_of_mem _ hb)]
  have apart {ls : List Text} (h : titleLine ∉ ls) :
      ∀ l ∈ tokens ls, decide (l = .title) = false :=
    decide_eq_false_of_not_mem (not_mem_tokens (k := .title) rfl h)
  have cut : cutAt (· = .title) (tokens lead ++ bodies.flatMap fun body => .title :: tokens body) =
      (tokens lead, bodies.map tokens) :=
    cutAt_blocks .title (decide_eq_true rfl) (apart hlead) fun body hb => apart (hbodies body hb)
  rw [parse_eq_ofDescription, parts, ofDescription, cut]

theorem parse_lead {lead : List Text} (h : titleLine ∉ lead) : parse lead = (empty, []) := by
  have alone := parse_blocks lead [] h (by simp)
  simpa [empty] using alone

/-- A block alone gives what its lines after the title line give. -/
theorem parse_block {body : List Text} (h : titleLine ∉ body) :
    parse (titleLine :: body) =
      (⟨(readGroup (tokens body)).1.toList, none, .empty⟩, (readGroup (tokens body)).2) := by
  have alone := parse_blocks [] [body] (by simp) (by simpa using h)
  simp only [List.nil_append, List.flatMap_cons, List.flatMap_nil, List.append_nil] at alone
  rw [alone]
  simp only [List.map_cons, List.map_nil, List.foldl_cons, List.foldl_nil, addBlock]
  rcases readGroup (tokens body) with ⟨_ | g, warnings⟩ <;> simp [addGroup]

/-! ### Blocks together -/

namespace Joins

variable {blocks : List (RegisterMap × List ParseWarning)} {groups : List Group}
  {warnings : List ParseWarning}

theorem nodup (h : Joins blocks groups warnings) : (groups.map Group.name).Nodup := by
  induction h with
  | nil => exact List.nodup_nil
  | none _ _ ih => exact ih
  | replaces _ _ same ih => simpa [same] using ih
  | appends _ _ new ih =>
    rw [List.map_append, List.nodup_append]
    refine ⟨ih, by simp, ?_⟩
    rintro a ha b hb
    obtain ⟨old, place, rfl⟩ := List.mem_map.mp ha
    obtain rfl := List.mem_singleton.mp hb
    exact new old place

end Joins

theorem map_apart {groups : List Group} {g : Group} (h : ∀ other ∈ groups, other.name ≠ g.name) :
    (groups.map fun other => if other.name == g.name then g else other) = groups := by
  calc (groups.map fun other => if other.name == g.name then g else other)
      = groups.map id := List.map_congr_left fun other place => by simp [h other place]
    _ = groups := List.map_id groups

/-- The names around a group that is replaced. -/
theorem apart_of_nodup {front back : List Group} {old g : Group} (same : old.name = g.name)
    (nodup : ((front ++ old :: back).map Group.name).Nodup) :
    (∀ other ∈ front, other.name ≠ g.name) ∧ ∀ other ∈ back, other.name ≠ g.name := by
  simp only [List.map_append, List.map_cons, List.nodup_append, List.nodup_cons] at nodup
  obtain ⟨-, ⟨afterwards, -⟩, apart⟩ := nodup
  rw [← same]
  constructor
  · intro other place
    exact apart _ (List.mem_map_of_mem place) _ List.mem_cons_self
  · intro other place named
    exact afterwards (named ▸ List.mem_map_of_mem place)

theorem addGroup_replaces {front back : List Group} {old g : Group} (same : old.name = g.name)
    (nodup : ((front ++ old :: back).map Group.name).Nodup) :
    addGroup (front ++ old :: back) g = front ++ g :: back := by
  obtain ⟨inFront, inBack⟩ := apart_of_nodup same nodup
  unfold addGroup
  rw [if_pos (by simp [same]), List.map_append, List.map_cons, map_apart inFront,
    map_apart inBack]
  simp [same]

theorem joins_addBlock {blocks : List (RegisterMap × List ParseWarning)}
    {known : List Group × List ParseWarning} {body : List Text} (h : Joins blocks known.1 known.2)
    (inside : titleLine ∉ body) :
    Joins (blocks ++ [parse (titleLine :: body)]) (addBlock known (tokens body)).1
      (addBlock known (tokens body)).2 := by
  rw [parse_block inside]
  unfold addBlock
  rcases readGroup (tokens body) with ⟨_ | g, warnings⟩
  · exact .none h rfl
  by_cases present : ∃ old ∈ known.1, old.name = g.name
  · obtain ⟨old, place, same⟩ := present
    have told : known.1.any (·.name == g.name) = true :=
      List.any_eq_true.mpr ⟨old, place, by simpa using same⟩
    obtain ⟨front, back, shape⟩ := List.append_of_mem place
    have nodup := h.nodup
    rw [shape] at h nodup
    simp only [told, if_true]
    rw [shape, addGroup_replaces same nodup]
    exact .replaces h rfl same
  · have new : known.1.any (·.name == g.name) = false := by
      rw [List.any_eq_false]
      intro old place named
      exact present ⟨old, place, by simpa using named⟩
    simp only [new, Bool.false_eq_true, if_false, List.append_nil, addGroup]
    exact .appends h rfl fun old place same => present ⟨old, place, same⟩

theorem joins_foldl {blocks : List (RegisterMap × List ParseWarning)}
    (known : List Group × List ParseWarning) (h : Joins blocks known.1 known.2)
    {bodies : List (List Text)} (inside : ∀ body ∈ bodies, titleLine ∉ body) :
    Joins (blocks ++ bodies.map fun body => parse (titleLine :: body))
      ((bodies.map tokens).foldl addBlock known).1
      ((bodies.map tokens).foldl addBlock known).2 := by
  induction bodies generalizing blocks known with
  | nil => simpa using h
  | cons body bodies ih =>
    have next := joins_addBlock h (inside body List.mem_cons_self)
    have later := ih _ next fun b hb => inside b (List.mem_cons_of_mem _ hb)
    simpa using later

/-! ### What the result holds -/

/-- The block of the group is the last that gives one of its name. -/
def LastOfName (blocks : List (RegisterMap × List ParseWarning)) (g : Group) : Prop :=
  ∃ before b after, blocks = before ++ b :: after ∧ b.1.groups = [g] ∧
    ∀ later ∈ after, ∀ g' ∈ later.1.groups, g'.name ≠ g.name

theorem lastOfName_append {blocks : List (RegisterMap × List ParseWarning)}
    {b : RegisterMap × List ParseWarning} {g : Group} :
    LastOfName (blocks ++ [b]) g ↔
      b.1.groups = [g] ∨ LastOfName blocks g ∧ ∀ g' ∈ b.1.groups, g'.name ≠ g.name := by
  constructor
  · rintro ⟨before, b', after, split, gives, apart⟩
    rcases List.eq_nil_or_concat after with rfl | ⟨after, last, rfl⟩
    · obtain ⟨-, same⟩ := List.append_inj' split rfl
      obtain rfl := List.singleton_inj.mp same
      exact .inl gives
    · rw [List.concat_eq_append, ← List.cons_append, ← List.append_assoc] at split
      obtain ⟨rfl, same⟩ := List.append_inj' split rfl
      obtain rfl := List.singleton_inj.mp same
      refine .inr ⟨⟨before, b', after, rfl, gives, fun later place => ?_⟩, ?_⟩
      · exact apart later (by simp [place])
      · exact apart b (by simp)
  · rintro (gives | ⟨⟨before, b', after, rfl, gives, apart⟩, last⟩)
    · exact ⟨blocks, b, [], rfl, gives, by simp⟩
    · refine ⟨before, b', after ++ [b], by simp, gives, ?_⟩
      intro later place
      rcases List.mem_append.mp place with place | place
      · exact apart later place
      · exact List.mem_singleton.mp place ▸ last

namespace Joins

variable {blocks : List (RegisterMap × List ParseWarning)} {groups : List Group}
  {warnings : List ParseWarning}

theorem mem_iff (h : Joins blocks groups warnings) (g : Group) :
    g ∈ groups ↔ LastOfName blocks g := by
  induction h with
  | nil => simp [LastOfName]
  | none before gives ih =>
    rw [lastOfName_append, ih]
    simp [gives]
  | @replaces blocks front back old g' warnings own m before gives same ih =>
    obtain ⟨inFront, inBack⟩ := apart_of_nodup same before.nodup
    rw [lastOfName_append, ← ih]
    simp only [gives, List.mem_append, List.mem_cons, List.cons.injEq, and_true, List.not_mem_nil,
      or_false, forall_eq]
    constructor
    · rintro (place | rfl | place)
      · exact .inr ⟨.inl place, (inFront g place).symm⟩
      · exact .inl rfl
      · exact .inr ⟨.inr (.inr place), (inBack g place).symm⟩
    · rintro (rfl | ⟨place | rfl | place, other⟩)
      · exact .inr (.inl rfl)
      · exact .inl place
      · exact absurd same.symm other
      · exact .inr (.inr place)
  | @appends blocks groups g' warnings own m before gives new ih =>
    rw [lastOfName_append, ← ih]
    simp only [gives, List.mem_append, List.mem_singleton, List.cons.injEq, and_true, forall_eq]
    constructor
    · rintro (place | rfl)
      · exact .inr ⟨place, (new g place).symm⟩
      · exact .inl rfl
    · rintro (rfl | ⟨place, -⟩)
      · exact .inr rfl
      · exact .inl place

/-- Names stand in the order of their first appearance. -/
theorem names_eq (h : Joins blocks groups warnings) :
    groups.map Group.name = (blocks.flatMap fun b => b.1.groups.map Group.name).eraseDups := by
  induction h with
  | nil => rfl
  | none before gives ih => simpa [gives] using ih
  | @replaces blocks front back old g warnings own m before gives same ih =>
    have known : g.name ∈ blocks.flatMap fun b => b.1.groups.map Group.name := by
      rw [← List.mem_eraseDups, ← ih, ← same]
      simp
    rw [List.flatMap_append, List.eraseDups_append, ← ih]
    simp [gives, List.removeAll, known, same]
  | @appends blocks groups g warnings own m before gives new ih =>
    have unknown : g.name ∉ blocks.flatMap fun b => b.1.groups.map Group.name := by
      rw [← List.mem_eraseDups, ← ih, List.mem_map]
      rintro ⟨old, place, same⟩
      exact new old place same
    rw [List.flatMap_append, List.eraseDups_append, ← ih]
    simp [gives, List.removeAll, unknown, List.eraseDups_cons]

end Joins

theorem joins_parse (lines : List Text) :
    ∃ groups warnings, parse lines = (⟨groups, none, .empty⟩, warnings) ∧
      Joins ((titleBlocks lines).2.map parse) groups warnings := by
  have shape : ∀ b ∈ (titleBlocks lines).2, ∃ body, b = titleLine :: body ∧ titleLine ∉ body :=
    fun b => shape_of_mem_titleBlocks
  have inside : ∀ body ∈ (titleBlocks lines).2.map List.tail, titleLine ∉ body := by
    intro body place
    obtain ⟨b, hb, rfl⟩ := List.mem_map.mp place
    obtain ⟨body, rfl, free⟩ := shape b hb
    exact free
  have blocks : ((titleBlocks lines).2.map List.tail).flatMap (titleLine :: ·) =
      (titleBlocks lines).2.flatten := by
    rw [List.flatMap_map, List.flatMap_def]
    congr 1
    refine (List.map_congr_left fun b hb => ?_).trans (List.map_id _)
    obtain ⟨body, rfl, -⟩ := shape b hb
    rfl
  have parsed : (((titleBlocks lines).2.map List.tail).map fun body => parse (titleLine :: body)) =
      (titleBlocks lines).2.map parse := by
    rw [List.map_map]
    refine List.map_congr_left fun b hb => ?_
    obtain ⟨body, rfl, -⟩ := shape b hb
    rfl
  have whole := parse_blocks _ _ (title_not_mem_lead lines) inside
  have joins := joins_foldl ([], []) .nil inside
  rw [blocks, flatten_titleBlocks] at whole
  rw [List.nil_append, parsed] at joins
  exact ⟨_, _, whole, joins⟩

/-- Blocks are read apart: in one pass or cut at the titles, a list of lines gives what its blocks
give alone, each group at the place where its name first appeared and as the last block of that name
has it. What comes before the first title gives nothing. -/
theorem parse_isolated (lines : List Text) :
    Cursor.parse lines = parse lines ∧
    (titleBlocks lines).1 ++ (titleBlocks lines).2.flatten = lines ∧
    titleLine ∉ (titleBlocks lines).1 ∧
    parse (titleBlocks lines).1 = (empty, []) ∧
    (∀ b ∈ (titleBlocks lines).2, (∃ body, b = titleLine :: body ∧ titleLine ∉ body) ∧
      (parse b).1.groups.length ≤ 1) ∧
    ∃ groups warnings, parse lines = (⟨groups, none, .empty⟩, warnings) ∧
      Joins ((titleBlocks lines).2.map parse) groups warnings ∧
      (groups.map Group.name).Nodup ∧
      groups.map Group.name =
        ((titleBlocks lines).2.flatMap fun b => (parse b).1.groups.map Group.name).eraseDups ∧
      ∀ g, g ∈ groups ↔ LastOfName ((titleBlocks lines).2.map parse) g := by
  have shape : ∀ b ∈ (titleBlocks lines).2, ∃ body, b = titleLine :: body ∧ titleLine ∉ body :=
    fun b => shape_of_mem_titleBlocks
  refine ⟨Cursor.parse_eq lines, flatten_titleBlocks lines, title_not_mem_lead lines,
    parse_lead (title_not_mem_lead lines), ?_, ?_⟩
  · intro b hb
    obtain ⟨body, rfl, free⟩ := shape b hb
    refine ⟨⟨body, rfl, free⟩, ?_⟩
    rw [parse_block free]
    cases (readGroup (tokens body)).1 <;> simp
  · obtain ⟨groups, warnings, whole, joins⟩ := joins_parse lines
    refine ⟨groups, warnings, whole, joins, joins.nodup, ?_, joins.mem_iff⟩
    rw [joins.names_eq, List.flatMap_map]

end Gateware.RegisterMap
