import Gateware.Proofs.Interface.Lines
import Mathlib.Data.List.TakeWhile

/-!
# Ports and the interfaces that they stand under

The lines of a script are cut at the calls that open an interface (`segments`). A segment whose
call has a name makes an interface, which takes the ports of its own segment, and also those of
the segments without a name that follow it (`gathered`): such a call is skipped, but the interface
before it stays open. So every port goes to the interface in whose segment it stands exactly when
no segment without a name holds a port behind the first one that has a name (`attributed_iff`).
-/

namespace Gateware.Interface

open Text

/-! ### Segments -/

/-- A call that opens an interface, and the lines up to the next one. -/
structure Segment where
  opening : Text
  body : List Text

/-- The lines before the first call that opens an interface, and the segments behind. -/
def segments : List Text → List Text × List Segment
  | [] => ([], [])
  | l :: ls =>
    let (lead, rest) := segments ls
    if calls defineCall l then ([], ⟨l, lead⟩ :: rest) else (l :: lead, rest)

def Segment.lines (s : Segment) : List Text := s.opening :: s.body

/-- The lines of a text that call for a port. -/
def portLines (ls : List Text) : List Text := ls.filter (calls portsCall)

/-- The port that a well-formed line tells. -/
def portAt? (line : Text) : Option InterfacePort :=
  match Script.splitWords line with
  | [] => none
  | call :: words => if call = portsCall then (portOf words).toOption else none

def badPortLines (ls : List Text) : List Text := (portLines ls).filter fun l => (portAt? l).isNone

namespace Segment

/-- The name behind the call, if there is one. -/
def name? (s : Segment) : Option Text := (Script.splitWords s.opening)[1]?

def nameless (s : Segment) : Bool := s.name?.isNone

def ports (s : Segment) : List InterfacePort := s.body.filterMap portAt?

/-- The lines of a segment that are in no interface: a call without a name and all ports under it,
or the malformed ports under a name. -/
def refused (s : Segment) : List Text :=
  if s.nameless then s.opening :: portLines s.body else badPortLines s.body

/-- The lines of a segment that are malformed themselves. -/
def malformed (s : Segment) : List Text :=
  if s.nameless then s.opening :: badPortLines s.body else badPortLines s.body

end Segment

def Warning.line : Warning → Text
  | .badDefine line => line
  | .portOutside line => line
  | .badPort _ line _ => line

variable {l : Text} {body ls : List Text} {s : Segment} {ss : List Segment}

/-- What an interface is called, and its ports. -/
def holding (i : Interface) : Text × List InterfacePort := (i.name, i.ports)

/-- Each segment with a name makes an interface of its own ports, and every line that is in none is
told once. -/
structure Attributed (lines : List Text) : Prop where
  interfaces : (parse lines).1.map holding =
    (segments lines).2.filterMap fun s => s.name?.map fun name => (name, s.ports)
  told : (parse lines).2.map Warning.line =
    portLines (segments lines).1 ++ (segments lines).2.flatMap Segment.refused

/-- Each name with the ports of its own segment and of those without a name that follow it. -/
def gathered : List Segment → List (Text × List InterfacePort)
  | [] => []
  | s :: ss =>
    match s.name? with
    | none => gathered ss
    | some name =>
      (name, s.ports ++ (ss.takeWhile Segment.nameless).flatMap Segment.ports) :: gathered ss

theorem flatten_segments (ls : List Text) :
    (segments ls).1 ++ (segments ls).2.flatMap Segment.lines = ls := by
  induction ls with
  | nil => rfl
  | cons l ls ih => by_cases h : calls defineCall l <;> simp [segments, h, Segment.lines, ih]

theorem lead_of_segments (ls : List Text) :
    ∀ l ∈ (segments ls).1, calls defineCall l = false := by
  induction ls with
  | nil => exact List.forall_mem_nil _
  | cons l ls ih => by_cases h : calls defineCall l <;> simp_all [segments]

/-- What every segment of a script keeps to. -/
structure Segment.Cut (s : Segment) : Prop where
  opening : calls defineCall s.opening = true
  body : ∀ l ∈ s.body, calls defineCall l = false

theorem cut_of_segments (ls : List Text) : ∀ s ∈ (segments ls).2, s.Cut := by
  induction ls with
  | nil => exact List.forall_mem_nil _
  | cons l ls ih =>
    by_cases h : calls defineCall l = true
    · simp only [segments, h, if_true]
      exact List.forall_mem_cons.mpr ⟨⟨h, lead_of_segments ls⟩, ih⟩
    · simp only [segments, h]
      exact ih

/-! ### Reading a segment -/

theorem portAt?_of_splitWords {words : List Text}
    (split : Script.splitWords l = portsCall :: words) : portAt? l = (portOf words).toOption := by
  unfold portAt?
  rw [split]
  exact if_pos rfl

theorem portAt?_eq_none (other : calls portsCall l = false) : portAt? l = none := by
  unfold portAt?
  cases split : Script.splitWords l with
  | nil => rfl
  | cons call words =>
    refine if_neg fun same => ?_
    rw [calls_iff.mpr ⟨words, same ▸ split⟩] at other
    cases other

theorem badPortLines_append (ls ls' : List Text) :
    badPortLines (ls ++ ls') = badPortLines ls ++ badPortLines ls' := by
  unfold badPortLines portLines
  rw [List.filter_append, List.filter_append]

/-- A line that opens no interface adds its port to the one that is open, or is told when it tells
no port. -/
theorem readLine_under (plain : calls defineCall l = false) (i : Interface)
    (opened : List Interface) (comment : List Text) :
    ∃ comment' warnings, readLine ⟨i :: opened, comment⟩ l =
        (⟨{ i with ports := i.ports ++ (portAt? l).toList } :: opened, comment'⟩, warnings) ∧
      warnings.map Warning.line = badPortLines [l] := by
  cases ports : calls portsCall l with
  | false =>
    obtain ⟨comment', read⟩ := readLine_other plain ports ⟨i :: opened, comment⟩
    refine ⟨comment', [], ?_, ?_⟩
    · rw [read, portAt?_eq_none ports, Option.toList_none, List.append_nil]
    · simp [badPortLines, portLines, ports]
  | true =>
    obtain ⟨words, split⟩ := calls_iff.mp ports
    have told := portAt?_of_splitWords split
    cases read : portOf words with
    | error cause =>
      refine ⟨[], [.badPort cause l i.name], ?_, ?_⟩
      · rw [readLine_badPort split read, told, read]
        simp [Except.toOption]
      · simp [badPortLines, portLines, ports, told, read, Except.toOption, Warning.line]
    | ok port =>
      refine ⟨[], [], ?_, ?_⟩
      · rw [readLine_port split read, told, read]
        rfl
      · simp [badPortLines, portLines, ports, told, read, Except.toOption]

theorem reads_under (plain : ∀ l ∈ body, calls defineCall l = false) (i : Interface)
    (opened : List Interface) (comment : List Text) :
    ∃ comment' warnings, Reads ⟨i :: opened, comment⟩ body
        ⟨{ i with ports := i.ports ++ body.filterMap portAt? } :: opened, comment'⟩ warnings ∧
      warnings.map Warning.line = badPortLines body := by
  induction body generalizing i comment with
  | nil =>
    refine ⟨comment, [], ?_, rfl⟩
    rw [List.filterMap_nil, List.append_nil]
    exact reads_nil _
  | cons l body ih =>
    obtain ⟨first, rest⟩ := List.forall_mem_cons.mp plain
    obtain ⟨comment₁, warnings, here, told⟩ := readLine_under first i opened comment
    obtain ⟨comment₂, warnings', later, told'⟩ :=
      ih rest { i with ports := i.ports ++ (portAt? l).toList } comment₁
    have all : (l :: body).filterMap portAt? = (portAt? l).toList ++ body.filterMap portAt? := by
      cases shape : portAt? l <;> simp [shape]
    refine ⟨comment₂, warnings ++ warnings', ?_, ?_⟩
    · rw [all, ← List.append_assoc]
      exact .cons here later
    · rw [List.map_append, told, told', ← badPortLines_append]
      rfl

/-- Where no interface is open yet, every line that calls for a port is told. -/
theorem reads_outside (plain : ∀ l ∈ body, calls defineCall l = false) (comment : List Text) :
    ∃ comment' warnings, Reads ⟨[], comment⟩ body ⟨[], comment'⟩ warnings ∧
      warnings.map Warning.line = portLines body := by
  induction body generalizing comment with
  | nil => exact ⟨comment, [], reads_nil _, rfl⟩
  | cons l body ih =>
    obtain ⟨first, rest⟩ := List.forall_mem_cons.mp plain
    cases ports : calls portsCall l with
    | false =>
      obtain ⟨comment₁, here⟩ := readLine_other first ports ⟨[], comment⟩
      obtain ⟨comment₂, warnings, later, told⟩ := ih rest comment₁
      refine ⟨comment₂, warnings, .cons here later, ?_⟩
      simpa [portLines, ports] using told
    | true =>
      obtain ⟨words, split⟩ := calls_iff.mp ports
      obtain ⟨comment', warnings, later, told⟩ := ih rest []
      refine ⟨comment', _, .cons (readLine_outside split comment) later, ?_⟩
      simpa [portLines, ports, Warning.line] using told

/-- The call of a segment opens an interface when it has a name, and is told otherwise. -/
theorem readLine_opening (cut : s.Cut) (p : Progress) :
    (∃ name description, s.name? = some name ∧
      readLine p s.opening = (⟨⟨name, description, []⟩ :: p.opened, []⟩, [])) ∨
    (s.name? = none ∧ readLine p s.opening = (⟨p.opened, []⟩, [.badDefine s.opening])) := by
  obtain ⟨words, split⟩ := calls_iff.mp cut.opening
  unfold Segment.name?
  cases words with
  | nil =>
    refine .inr ⟨?_, readLine_nameless split p⟩
    rw [split]
    rfl
  | cons name words =>
    refine .inl ⟨name, describe? p.comment, ?_, readLine_named split p⟩
    rw [split]
    rfl

/-! ### Reading segments -/

theorem reads_behind (cut : ∀ s ∈ ss, s.Cut) (i : Interface) (opened : List Interface)
    (comment : List Text) :
    ∃ p warnings, Reads ⟨i :: opened, comment⟩ (ss.flatMap Segment.lines) p warnings ∧
      p.opened.reverse.map holding = opened.reverse.map holding ++
        (i.name, i.ports ++ (ss.takeWhile Segment.nameless).flatMap Segment.ports) :: gathered ss ∧
      warnings.map Warning.line = ss.flatMap Segment.malformed := by
  induction ss generalizing i opened comment with
  | nil =>
    refine ⟨_, [], reads_nil _, ?_, rfl⟩
    simp [holding, gathered]
  | cons s ss ih =>
    obtain ⟨first, rest⟩ := List.forall_mem_cons.mp cut
    rcases readLine_opening first ⟨i :: opened, comment⟩ with
      ⟨name, description, named, here⟩ | ⟨nameless, here⟩
    · obtain ⟨comment₁, warnings, under, told⟩ :=
        reads_under first.body ⟨name, description, []⟩ (i :: opened) []
      obtain ⟨p, warnings', later, holds, told'⟩ := ih rest
        ⟨name, description, s.ports⟩ (i :: opened) comment₁
      have stops : s.nameless = false := by simp [Segment.nameless, named]
      refine ⟨p, warnings ++ warnings', .append (.cons here under) later, ?_, ?_⟩
      · rw [holds]
        simp [holding, gathered, named, stops]
      · rw [List.map_append, told, told', List.flatMap_cons, Segment.malformed, stops]
        rfl
    · obtain ⟨comment₁, warnings, under, told⟩ := reads_under first.body i opened []
      obtain ⟨p, warnings', later, holds, told'⟩ := ih rest
        { i with ports := i.ports ++ s.ports } opened comment₁
      have goes : s.nameless = true := by simp [Segment.nameless, nameless]
      refine ⟨p, _, .append (.cons here under) later, ?_, ?_⟩
      · rw [holds]
        simp [gathered, nameless, goes]
      · rw [List.map_append, List.map_append, told, told', List.flatMap_cons, Segment.malformed,
          goes]
        rfl

theorem reads_front (cut : ∀ s ∈ ss, s.Cut) (comment : List Text) :
    ∃ p warnings, Reads ⟨[], comment⟩ (ss.flatMap Segment.lines) p warnings ∧
      p.opened.reverse.map holding = gathered ss ∧
      warnings.map Warning.line = (ss.takeWhile Segment.nameless).flatMap Segment.refused ++
        (ss.dropWhile Segment.nameless).flatMap Segment.malformed := by
  induction ss generalizing comment with
  | nil => exact ⟨_, [], reads_nil _, rfl, rfl⟩
  | cons s ss ih =>
    obtain ⟨first, rest⟩ := List.forall_mem_cons.mp cut
    rcases readLine_opening first ⟨[], comment⟩ with
      ⟨name, description, named, here⟩ | ⟨nameless, here⟩
    · obtain ⟨comment₁, warnings, under, told⟩ :=
        reads_under first.body ⟨name, description, []⟩ [] []
      obtain ⟨p, warnings', later, holds, told'⟩ := reads_behind rest
        ⟨name, description, s.ports⟩ [] comment₁
      have stops : s.nameless = false := by simp [Segment.nameless, named]
      refine ⟨p, warnings ++ warnings', .append (.cons here under) later, ?_, ?_⟩
      · rw [holds]
        simp [gathered, named]
      · rw [List.map_append, told, told', List.takeWhile_cons, List.dropWhile_cons, stops]
        simp [Segment.malformed, stops]
    · obtain ⟨comment₁, warnings, outside, told⟩ := reads_outside first.body []
      obtain ⟨p, warnings', later, holds, told'⟩ := ih rest comment₁
      have goes : s.nameless = true := by simp [Segment.nameless, nameless]
      refine ⟨p, _, .append (.cons here outside) later, ?_, ?_⟩
      · rw [holds]
        simp [gathered, nameless]
      · rw [List.map_append, List.map_append, told, told', List.takeWhile_cons, List.dropWhile_cons,
          goes]
        simp [Segment.refused, goes, Warning.line]

/-! ### Ports in their own segments -/

theorem nameless_iff : s.nameless = true ↔ s.name? = none := Option.isNone_iff_eq_none

/-- Nothing is gathered from the segments without a name at the front exactly when they hold no
port. -/
theorem flatMap_ports_takeWhile (ss : List Segment) :
    (ss.takeWhile Segment.nameless).flatMap Segment.ports = [] ↔
      ∀ s ∈ ss.takeWhile Segment.nameless, s.name? = none → s.ports = [] := by
  rw [List.flatMap_eq_nil_iff]
  exact forall₂_congr fun s hs =>
    ⟨fun empty _ => empty, fun empty => empty (nameless_iff.mp (List.mem_takeWhile_imp hs))⟩

theorem gathered_eq_iff (ss : List Segment) :
    gathered ss = ss.filterMap (fun s => s.name?.map fun name => (name, s.ports)) ↔
      ∀ s ∈ ss.dropWhile Segment.nameless, s.name? = none → s.ports = [] := by
  induction ss with
  | nil => simp [gathered]
  | cons s ss ih =>
    cases named : s.name? with
    | none =>
      have goes : s.nameless = true := nameless_iff.mpr named
      rw [gathered, named, List.filterMap_cons_none (by rw [named]; rfl),
        List.dropWhile_cons_of_pos goes]
      exact ih
    | some name =>
      have stops : ¬ s.nameless = true := by simp [nameless_iff, named]
      -- all segments behind a name count, the ones without a name at their front are gathered here
      have parts : (∀ t ∈ s :: ss, t.name? = none → t.ports = []) ↔
          (∀ t ∈ ss.takeWhile Segment.nameless, t.name? = none → t.ports = []) ∧
            ∀ t ∈ ss.dropWhile Segment.nameless, t.name? = none → t.ports = [] := by
        rw [List.forall_mem_cons, ← List.forall_mem_append, List.takeWhile_append_dropWhile]
        simp [named]
      rw [gathered, named, List.filterMap_cons_some (by rw [named]; rfl),
        List.dropWhile_cons_of_neg stops, parts, ← ih, ← flatMap_ports_takeWhile]
      simp

theorem malformed_eq_refused (h : s.name? = none → s.ports = []) : s.malformed = s.refused := by
  unfold Segment.malformed Segment.refused
  split
  · rename_i nameless
    have none : ∀ l ∈ s.body, portAt? l = none :=
      List.filterMap_eq_nil_iff.mp (h (nameless_iff.mp nameless))
    have bad : badPortLines s.body = portLines s.body :=
      List.filter_eq_self.mpr fun l hl => by simp [none l (List.mem_of_mem_filter hl)]
    rw [bad]
  · rfl

/-- An interface holds the ports of its own segment and those of the segments without a name right
behind it, and a line is told once when it is malformed, or when it calls for a port before any
interface is open. So each port goes to the interface in whose segment it stands, and to no other,
exactly when behind the first name no segment without a name holds a well-formed port. -/
theorem attributed_iff (lines : List Text) :
    (parse lines).1.map holding = gathered (segments lines).2 ∧
    (parse lines).2.map Warning.line = portLines (segments lines).1 ++
      (((segments lines).2.takeWhile Segment.nameless).flatMap Segment.refused ++
        ((segments lines).2.dropWhile Segment.nameless).flatMap Segment.malformed) ∧
    (Attributed lines ↔
      ∀ s ∈ (segments lines).2.dropWhile Segment.nameless, s.name? = none → s.ports = []) := by
  obtain ⟨comment, before, lead, told⟩ := reads_outside (lead_of_segments lines) []
  obtain ⟨p, warnings, reads, holds, told'⟩ := reads_front (cut_of_segments lines) comment
  have whole := (lead.append reads).parse_eq
  rw [flatten_segments] at whole
  have interfaces : (parse lines).1.map holding = gathered (segments lines).2 := by
    rw [whole]
    exact holds
  have warned : (parse lines).2.map Warning.line = portLines (segments lines).1 ++
      (((segments lines).2.takeWhile Segment.nameless).flatMap Segment.refused ++
        ((segments lines).2.dropWhile Segment.nameless).flatMap Segment.malformed) := by
    rw [whole, List.map_append, told, told']
  refine ⟨interfaces, warned, fun attributed => ?_, fun own => ⟨?_, ?_⟩⟩
  · rw [← gathered_eq_iff, ← interfaces]
    exact attributed.interfaces
  · rw [interfaces]
    exact (gathered_eq_iff _).mpr own
  · rw [warned, List.flatMap_congr fun s hs => malformed_eq_refused (own s hs),
      ← List.flatMap_append, List.takeWhile_append_dropWhile]

/-- The port under a call without a name goes to the interface before it, and nothing tells so. -/
theorem not_attributed_namelessCall :
    let lines : List Text := ["adi_if_define first", "adi_if_ports input 1 clk", "adi_if_define",
      "adi_if_ports output 8 data"]
    ¬ Attributed lines ∧
    parse lines = ([{
        name := "first"
        ports := [{ direction := "input", width := 1, name := "clk" },
          { direction := "output", width := 8, name := "data" }] }],
      [.badDefine "adi_if_define"]) := by
  refine ⟨fun attributed => absurd attributed.interfaces (by decide +kernel), by decide +kernel⟩

end Gateware.Interface
