import Gateware.Interface
import Gateware.Proofs.Script.Items

/-!
# Lines of an interface script

What a line does is told by its words alone: it opens an interface (`readLine_named`), adds a port
to the one opened last (`readLine_port`), or does neither (`readLine_other`). Lines are read one
after another, so what stretches of lines do can be put together (`Reads.append`).
-/

namespace Gateware.Interface

open Text

variable {p q r : Progress} {line call name : Text} {words ls ls' : List Text}
  {warnings warnings' : List Warning}

/-! ### One line -/

theorem portsCall_ne_defineCall : portsCall ≠ defineCall := by decide

/-- The first word of the line is `name`. -/
def calls (name line : Text) : Bool := (Script.splitWords line).head? == some name

theorem calls_iff : calls name line = true ↔ ∃ words, Script.splitWords line = name :: words := by
  unfold calls
  rw [beq_iff_eq, List.head?_eq_some_iff]

theorem head?_splitWords_comment (s : Text) :
    ∃ w words, Script.splitWords ('#' :: s) = ('#' :: w) :: words := by
  obtain ⟨w, ws, shape⟩ := List.exists_cons_of_ne_nil (Script.piecesFrom_ne_nil {} s)
  have pieces : Script.piecesFrom {} ('#' :: s) = ('#' :: w) :: ws := by
    have inside : Script.Nesting.separates {} '#' = false := by decide
    have stays : Script.Nesting.step {} '#' = {} := by decide
    rw [Script.piecesFrom, inside, stays, shape]
    rfl
  refine ⟨w, ws.filter fun w => !w.isEmpty, ?_⟩
  unfold Script.splitWords
  rw [pieces]
  rfl

theorem calls_comment (marked : name.head? ≠ some '#') (s : Text) :
    calls name ('#' :: s) = false := by
  obtain ⟨w, words, split⟩ := head?_splitWords_comment s
  unfold calls
  rw [split, List.head?_cons, beq_eq_false_iff_ne]
  intro same
  rw [← Option.some.inj same] at marked
  exact marked rfl

/-- A line that calls a command is no comment. -/
theorem not_comment (marked : call.head? ≠ some '#')
    (split : Script.splitWords line = call :: words) (s : Text) : line ≠ '#' :: s := by
  rintro rfl
  have silent := calls_comment marked s
  rw [calls_iff.mpr ⟨words, split⟩] at silent
  cases silent

theorem readLine_named (split : Script.splitWords line = defineCall :: name :: words)
    (p : Progress) :
    readLine p line = (⟨⟨name, describe? p.comment, []⟩ :: p.opened, []⟩, []) := by
  rw [readLine.eq_2 _ _ (not_comment (by decide) split), split]
  exact if_pos rfl

theorem readLine_nameless (split : Script.splitWords line = [defineCall]) (p : Progress) :
    readLine p line = (⟨p.opened, []⟩, [.badDefine line]) := by
  rw [readLine.eq_2 _ _ (not_comment (by decide) split), split]
  exact if_pos rfl

theorem readLine_outside (split : Script.splitWords line = portsCall :: words)
    (comment : List Text) :
    readLine ⟨[], comment⟩ line = (⟨[], []⟩, [.portOutside line]) := by
  rw [readLine.eq_2 _ _ (not_comment (by decide) split), split]
  simp only [if_neg portsCall_ne_defineCall, if_true]

theorem readLine_port {port : InterfacePort} (split : Script.splitWords line = portsCall :: words)
    (read : portOf words = .ok port) (i : Interface) (opened : List Interface)
    (comment : List Text) :
    readLine ⟨i :: opened, comment⟩ line =
      (⟨{ i with ports := i.ports ++ [port] } :: opened, []⟩, []) := by
  rw [readLine.eq_2 _ _ (not_comment (by decide) split), split]
  simp only [if_neg portsCall_ne_defineCall, if_true, read]

theorem readLine_badPort {cause : PortError} (split : Script.splitWords line = portsCall :: words)
    (read : portOf words = .error cause) (i : Interface) (opened : List Interface)
    (comment : List Text) :
    readLine ⟨i :: opened, comment⟩ line = (⟨i :: opened, []⟩, [.badPort cause line i.name]) := by
  rw [readLine.eq_2 _ _ (not_comment (by decide) split), split]
  simp only [if_neg portsCall_ne_defineCall, if_true, read]

theorem readLine_comment (p : Progress) (text : Text) :
    readLine p ('#' :: text) = ({ p with comment := p.comment ++ [trim text] }, []) := rfl

/-- Any other line leaves the interfaces as they are and is not warned about. -/
theorem readLine_other (define : calls defineCall line = false)
    (ports : calls portsCall line = false) (p : Progress) :
    ∃ comment, readLine p line = (⟨p.opened, comment⟩, []) := by
  unfold readLine
  split
  · exact ⟨_, rfl⟩
  · cases split : Script.splitWords line with
    | nil => exact ⟨_, rfl⟩
    | cons call words =>
      have other : call ≠ defineCall := by
        rintro rfl
        rw [calls_iff.mpr ⟨words, split⟩] at define
        cases define
      have still : call ≠ portsCall := by
        rintro rfl
        rw [calls_iff.mpr ⟨words, split⟩] at ports
        cases ports
      exact ⟨[], by simp only [if_neg other, if_neg still]⟩

theorem readLine_blank (blank : ∀ c ∈ line, isBlank c = true) (p : Progress) :
    readLine p line = (⟨p.opened, []⟩, []) := by
  unfold readLine
  split
  · exact absurd (blank '#' List.mem_cons_self) (by decide)
  · rw [Script.splitWords_eq_nil blank]

/-! ### Stretches of lines -/

/-- The lines lead from one state to another, with these warnings. -/
def Reads (p : Progress) (ls : List Text) (q : Progress) (warnings : List Warning) : Prop :=
  ∀ rest, readLines p (ls ++ rest) =
    ((readLines q rest).1, warnings ++ (readLines q rest).2)

theorem reads_nil (p : Progress) : Reads p [] p [] := fun _ => rfl

theorem reads_line (read : readLine p line = (q, warnings)) : Reads p [line] q warnings := by
  intro rest
  rw [List.singleton_append, readLines, read]

theorem Reads.append (front : Reads p ls q warnings) (back : Reads q ls' r warnings') :
    Reads p (ls ++ ls') r (warnings ++ warnings') := by
  intro rest
  rw [List.append_assoc, front, back, List.append_assoc]

theorem Reads.cons (read : readLine p line = (q, warnings)) (back : Reads q ls r warnings') :
    Reads p (line :: ls) r (warnings ++ warnings') := (reads_line read).append back

theorem Reads.parse_eq (h : Reads {} ls p warnings) : parse ls = (p.opened.reverse, warnings) := by
  have whole := h []
  rw [List.append_nil] at whole
  unfold parse
  rw [whole, readLines, List.append_nil]

end Gateware.Interface
