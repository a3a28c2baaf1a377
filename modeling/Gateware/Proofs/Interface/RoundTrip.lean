import Gateware.Interface.Printer
import Gateware.Proofs.Interface.Lines
import Gateware.Proofs.Text.Numeral

/-!
# Interfaces are read back

The lines in which interfaces are written are read as these interfaces, without a warning
(`parse_written_interfaces`). The words of a port tell it back (`portOf_written`), a stretch of
ports goes to the interface that stands before it (`reads_ports`), and so one interface after
another is added to those that are open (`reads_written`).
-/

namespace Gateware

open Text

/-! ### What can be written -/

/-- A port whose words are words of a script line, where a domain is not the word for a missing one.
A word may begin with a number sign, since none of them begins a line. -/
structure InterfacePort.Writable (p : InterfacePort) : Prop where
  direction : Script.Simple p.direction
  width : -(Interface.widthBound : Int) ≤ p.width ∧ p.width < Interface.widthBound
  name : Script.Simple p.name
  domain : ∀ d, p.domain = some d → Script.Simple d ∧ d ≠ Interface.noneWord
  default : ∀ value, p.default = some value →
    -(Interface.defaultBound : Int) ≤ value ∧ value < Interface.defaultBound

structure Interface.Writable (i : Interface) : Prop where
  name : Script.Simple i.name
  description : ∀ d, i.description = some d → d ≠ [] ∧ trim d = d
  ports : ∀ p ∈ i.ports, p.Writable

namespace Interface

variable {p : InterfacePort} {i : Interface} {opened : List Interface} {ports : List InterfacePort}

/-! ### Words of a port -/

theorem simple_decimalInt (n : Int) : Script.Simple (decimalInt n) where
  nonempty := decimalInt_ne_nil n
  solid c hc := by
    have := forall_mem_decimalInt (p := fun c => !isBlank c) (by decide) (by decide) n c hc
    simpa using this
  plain c hc := by
    have := forall_mem_decimalInt (p := fun c => !Script.delimiters.contains c) (by decide)
      (by decide) n c hc
    simpa using this

theorem decimalInt_ne_noneWord (n : Int) : decimalInt n ≠ noneWord := by
  intro same
  have letter : ∀ c ∈ decimalInt n, (c != 'n') = true :=
    forall_mem_decimalInt (p := (· != 'n')) (by decide) (by decide) n
  rw [same] at letter
  exact absurd (letter 'n' (by decide)) (by decide)

theorem words_of_writable (h : p.Writable) : ∀ w ∈ portWords p, Script.Simple w := by
  have missing : Script.Simple noneWord := by decide
  have domain : Script.Simple (p.domain.getD noneWord) := by
    cases shape : p.domain with
    | none => exact missing
    | some d => exact (h.domain d shape).1
  have optional : ∀ w ∈ p.optionalWords, Script.Simple w := by
    unfold InterfacePort.optionalWords
    cases p.default with
    | some value => simp [domain, simple_decimalInt]
    | none =>
      intro w hw
      exact (h.domain w (Option.mem_toList.mp hw)).1
  have call : Script.Simple portsCall := by decide
  unfold portWords
  simp only [List.forall_mem_cons]
  exact ⟨call, h.direction, simple_decimalInt p.width, h.name, optional⟩

theorem domain_optionalWords (h : p.Writable) : optionalWord? p.optionalWords 0 = p.domain := by
  have kept {d : Text} (shape : p.domain = some d) : (d != noneWord) = true := by
    simpa using (h.domain d shape).2
  unfold InterfacePort.optionalWords optionalWord?
  cases shape : p.domain with
  | none => cases p.default <;> rfl
  | some d => cases p.default <;> simp [kept shape]

theorem default_optionalWords (p : InterfacePort) :
    optionalWord? p.optionalWords 1 = p.default.map decimalInt := by
  unfold InterfacePort.optionalWords optionalWord?
  cases p.default with
  | some value => simp [decimalInt_ne_noneWord]
  | none => cases p.domain <;> rfl

theorem portOf_written (h : p.Writable) :
    portOf (p.direction :: decimalInt p.width :: p.name :: p.optionalWords) = .ok p := by
  have width : readInt? widthBound (decimalInt p.width) = some p.width :=
    readInt?_decimalInt h.width.1 h.width.2
  unfold portOf
  simp only [width, domain_optionalWords h, default_optionalWords]
  obtain ⟨direction, width, name, domain, default⟩ := p
  cases default with
  | none => rfl
  | some value =>
    have read : readInt? defaultBound (decimalInt value) = some value :=
      readInt?_decimalInt (h.default value rfl).1 (h.default value rfl).2
    simp only [Option.map_some, read]

/-! ### Lines of an interface -/

theorem reads_ports (h : ∀ p ∈ ports, p.Writable) (i : Interface) (opened : List Interface) :
    Reads ⟨i :: opened, []⟩ (ports.map portLine)
      ⟨{ i with ports := i.ports ++ ports } :: opened, []⟩ [] := by
  induction ports generalizing i with
  | nil =>
    rw [List.append_nil]
    exact reads_nil _
  | cons p ports ih =>
    obtain ⟨first, rest⟩ := List.forall_mem_cons.mp h
    have split : Script.splitWords (portLine p) = portWords p :=
      Script.splitWords_words fun w hw => (words_of_writable first w hw).word
    have here := readLine_port split (portOf_written first) i opened []
    have later := ih rest { i with ports := i.ports ++ [p] }
    rw [List.append_assoc, List.singleton_append] at later
    exact .cons here later

theorem trim_describing {d : Text} (h : trim d = d) : trim (' ' :: d) = d := by
  have gap : (' ' :: d).dropWhile isBlank = d.dropWhile isBlank :=
    List.dropWhile_cons_of_pos (by decide)
  unfold trim trimBy at h ⊢
  rwa [gap]

theorem reads_description {description : Option Text}
    (h : ∀ d, description = some d → d ≠ [] ∧ trim d = d) (opened : List Interface) :
    Reads ⟨opened, []⟩ (description.toList.map describingLine) ⟨opened, description.toList⟩ [] := by
  cases description with
  | none => exact reads_nil _
  | some d =>
    have comment := readLine_comment ⟨opened, []⟩ (' ' :: d)
    rw [trim_describing (h d rfl).2] at comment
    exact reads_line comment

theorem describe?_toList {description : Option Text}
    (h : ∀ d, description = some d → d ≠ [] ∧ trim d = d) :
    describe? description.toList = description := by
  cases description with
  | none => rfl
  | some d => simp [describe?, joinWith, (h d rfl).1]

theorem reads_written (h : i.Writable) (opened : List Interface) :
    Reads ⟨opened, []⟩ i.written ⟨i :: opened, []⟩ [] := by
  have call : Script.Simple defineCall := by decide
  have split : Script.splitWords (openingLine i.name) = [defineCall, i.name] := by
    refine Script.splitWords_words fun w hw => ?_
    simp only [List.mem_cons, List.not_mem_nil, or_false] at hw
    rcases hw with rfl | rfl
    · exact call.word
    · exact h.name.word
  have opening := readLine_named split ⟨opened, i.description.toList⟩
  rw [describe?_toList h.description] at opening
  exact (reads_description h.description opened).append
    (.cons opening (reads_ports h.ports ⟨i.name, i.description, []⟩ opened))

theorem reads_blank {lines : List Text} (blank : ∀ line ∈ lines, ∀ c ∈ line, isBlank c = true)
    (opened : List Interface) : Reads ⟨opened, []⟩ lines ⟨opened, []⟩ [] := by
  induction lines with
  | nil => exact reads_nil _
  | cons line lines ih =>
    obtain ⟨first, rest⟩ := List.forall_mem_cons.mp blank
    exact .cons (readLine_blank first ⟨opened, []⟩) (ih rest)

/-! ### Interfaces -/

/-- Interfaces that can be written are read back from their lines, in order and without a warning,
however many blank lines stand before each of them. -/
theorem parse_written_interfaces (entries : List (List Text × Interface))
    (blank : ∀ e ∈ entries, ∀ line ∈ e.1, ∀ c ∈ line, isBlank c = true)
    (writable : ∀ e ∈ entries, e.2.Writable) :
    parse (entries.flatMap fun e => e.1 ++ e.2.written) = (entries.map Prod.snd, []) := by
  have reads (opened : List Interface) :
      Reads ⟨opened, []⟩ (entries.flatMap fun e => e.1 ++ e.2.written)
        ⟨(entries.map Prod.snd).reverse ++ opened, []⟩ [] := by
    induction entries generalizing opened with
    | nil => exact reads_nil _
    | cons e entries ih =>
      obtain ⟨empty, blank⟩ := List.forall_mem_cons.mp blank
      obtain ⟨first, rest⟩ := List.forall_mem_cons.mp writable
      have here := (reads_blank empty opened).append (reads_written first opened)
      have later := ih blank rest (e.2 :: opened)
      rw [List.map_cons, List.reverse_cons, List.append_assoc, List.singleton_append]
      exact here.append later
  rw [(reads []).parse_eq, List.append_nil, List.reverse_reverse]

/-- A description may hold anything, and numbers reach to their bounds. -/
def writePort : Interface where
  name := "fifo_wr"
  description := some "# Write side [of a fifo], \x7bsee\" the guide"
  ports := [
    { direction := "input", width := 1, name := "#clk", domain := some "clock" },
    { direction := "output", width := -2147483648, name := "data",
      default := some 9223372036854775807 },
    { direction := "none", width := 2147483647, name := "none", domain := some "reset",
      default := some (-9223372036854775808) },
    { direction := "input", width := 8, name := "valid" }]

theorem writePort_writable : writePort.Writable where
  name := by decide
  description := by
    rintro _ ⟨⟩
    decide
  ports := by
    refine List.forall_mem_cons.mpr ⟨?_, List.forall_mem_cons.mpr
      ⟨?_, List.forall_mem_cons.mpr ⟨?_, List.forall_mem_singleton.mpr ?_⟩⟩⟩
    all_goals
      refine ⟨by decide, by decide, by decide, ?_, ?_⟩
      all_goals
        rintro _ ⟨⟩ <;> decide

theorem parse_written_interfaces_writePort :
    let entries : List (List Text × Interface) :=
      [(["", " \t"], writePort), ([""], { name := "empty" })]
    (∀ e ∈ entries, ∀ line ∈ e.1, ∀ c ∈ line, isBlank c = true) ∧
    (∀ e ∈ entries, e.2.Writable) ∧
    parse [
      "", " \t",
      "# # Write side [of a fifo], \x7bsee\" the guide",
      "adi_if_define fifo_wr",
      "adi_if_ports input 1 #clk clock",
      "adi_if_ports output -2147483648 data none 9223372036854775807",
      "adi_if_ports none 2147483647 none reset -9223372036854775808",
      "adi_if_ports input 8 valid",
      "",
      "adi_if_define empty"] = (entries.map Prod.snd, []) := by
  intro entries
  have empty : Writable { name := "empty" } := ⟨by decide, nofun, nofun⟩
  have blank : ∀ e ∈ entries, ∀ line ∈ e.1, ∀ c ∈ line, isBlank c = true := by
    have visited : entries.all (·.1.all (·.all isBlank)) = true := by decide
    simpa only [List.all_eq_true] using visited
  have writable : ∀ e ∈ entries, e.2.Writable :=
    List.forall_mem_cons.mpr ⟨writePort_writable, List.forall_mem_singleton.mpr empty⟩
  refine ⟨blank, writable, ?_⟩
  rw [← parse_written_interfaces entries blank writable]
  exact congrArg parse (by decide +kernel)

end Interface

end Gateware
