import Gateware.Proofs.RegisterMap.Expansion
import Gateware.Proofs.Text.Lookback
import Gateware.Proofs.Text.Marks
import Gateware.RegisterMap.Package

/-!
# The place of an index

The index of a name has one place, whatever the index is: the first `n` outside of lowercase words,
or else the first `n` (`picked_of_placeholder?`). The bytes of the name tell the same place
(`bytes_substituteIndex`). So a name with a directive there, as it is printed for a loop, is
formatted to the name with the index (`formatted?_substituteIndex`).
-/

namespace Gateware

open Text

variable {accepts : Option Char → Option Char → Bool} {prev : Option Char}
  {name before after : Text}

/-! ### The placeholder of a name -/

/-- What the search for a placeholder sees of a place. -/
def Accepted (accepts : Option Char → Option Char → Bool) (prev : Option Char) (name : Text)
    (i : Nat) : Prop :=
  i ∈ marks 'n' name ∧
    accepts ((name.take i).getLast?.or prev) (name.drop (i + 1)).head? = true

theorem accepted_zero {c : Char} {s : Text} :
    Accepted accepts prev (c :: s) 0 ↔ (c == 'n' && accepts prev s.head?) = true := by
  simp [Accepted, marks]

theorem accepted_succ {c : Char} {s : Text} {i : Nat} :
    Accepted accepts prev (c :: s) (i + 1) ↔ Accepted accepts (some c) s i := by
  simp [Accepted, marks, last_cons]

theorem placeholderBy?_eq_none {name : Text} (h : placeholderBy? accepts prev name = none)
    (i : Nat) : ¬ Accepted accepts prev name i := by
  induction name generalizing prev i with
  | nil => simp [Accepted, marks]
  | cons c s ih =>
    unfold placeholderBy? at h
    split at h
    · cases h
    · rename_i miss
      cases i with
      | zero => exact accepted_zero.not.mpr miss
      | succ i => exact accepted_succ.not.mpr (ih (Option.map_eq_none_iff.mp h) i)

/-- The search ends at the first place that it accepts. -/
theorem isLeast_of_placeholderBy? {name before after : Text}
    (h : placeholderBy? accepts prev name = some (before, after)) :
    IsLeast {i | Accepted accepts prev name i} before.length := by
  induction name generalizing prev before with
  | nil => cases h
  | cons c s ih =>
    unfold placeholderBy? at h
    split at h
    · rename_i found
      cases h
      exact ⟨accepted_zero.mpr found, fun i _ => Nat.zero_le i⟩
    · rename_i miss
      obtain ⟨⟨b, a⟩, rest, same⟩ := Option.map_eq_some_iff.mp h
      cases same
      obtain ⟨held, least⟩ := ih rest
      refine ⟨accepted_succ.mpr held, fun i accepted => ?_⟩
      cases i with
      | zero => exact absurd (accepted_zero.mp accepted) miss
      | succ i => exact Nat.succ_le_succ (least (accepted_succ.mp accepted))

theorem accepted_apart (name : Text) :
    {i | Accepted (fun prev next => !isLowerAt prev && !isLowerAt next) none name i} =
      marksApart 'n' Char.isLower name := by
  have quiet (c : Option Char) : isLowerAt c = false ↔ ∀ a ∈ c, a.isLower = false := by
    cases c <;> simp [isLowerAt]
  ext i
  simp only [Accepted, marksApart, Set.mem_ofPred_eq, Option.or_none, Bool.and_eq_true,
    Bool.not_eq_true', quiet]

theorem accepted_any (name : Text) :
    {i | Accepted (fun _ _ => true) none name i} = marks 'n' name := by
  ext i
  simp [Accepted]

theorem picked_of_placeholder? (h : placeholder? name = some (before, after)) :
    Picked 'n' Char.isLower name before.length := by
  unfold placeholder? at h
  unfold Picked
  rw [← accepted_apart, ← accepted_any]
  rcases Option.or_eq_some_iff.mp h with apart | ⟨none, first⟩
  · exact .inl (isLeast_of_placeholderBy? apart)
  · refine .inr ⟨?_, isLeast_of_placeholderBy? first⟩
    exact Set.eq_empty_of_forall_notMem (placeholderBy?_eq_none none)

/-! ### The bytes of a name -/

def isLowerByte (x : UInt8) : Bool := 'a'.toUInt8 ≤ x && x ≤ 'z'.toUInt8

/-- The bytes of a lowercase letter are lowercase, and no other character has such a byte. -/
theorem tells_isLowerByte : Tells isLowerByte Char.isLower := by
  intro c x held
  have codes : 'a'.val.toNat = 97 ∧ 'z'.val.toNat = 122 := ⟨rfl, rfl⟩
  have low : 'a'.toUInt8.toNat = 97 ∧ 'z'.toUInt8.toNat = 122 := ⟨rfl, rfl⟩
  unfold isLowerByte Char.isLower
  rw [Bool.eq_iff_iff]
  simp only [Bool.and_eq_true, decide_eq_true_eq, UInt8.le_iff_toNat_le, UInt32.le_iff_toNat_le,
    ge_iff_le, codes, low]
  rcases mem_utf8EncodeChar held with ⟨-, same⟩ | high <;> omega

theorem bytes_substituteIndex {k : Nat} (mark : name[k]? = some 'n') (index : Text) :
    bytes (name.take k ++ index ++ name.drop (k + 1)) =
      (bytes name).take (byteOffset name k) ++ bytes index ++
        (bytes name).drop (byteOffset name k + 1) := by
  obtain ⟨-, left, right⟩ := bytes_around (by decide) mark
  rw [left, right, bytes_append, bytes_append]

/-! ### Formats -/

/-- The text of a format. `%0d` writes the next argument in decimal, without padding, and `%%` a
percent sign; there is nothing else in it, and arguments that are left over write nothing. -/
def formatted? : Text → List Nat → Option Text
  | [], _ => some []
  | '%' :: '0' :: 'd' :: s, n :: arguments => (formatted? s arguments).map (decimal n ++ ·)
  | '%' :: '%' :: s, arguments => (formatted? s arguments).map ('%' :: ·)
  | '%' :: _, _ => none
  | c :: s, arguments => (formatted? s arguments).map (c :: ·)

theorem formatted?_append {t : Text} (plain : '%' ∉ t) (s : Text) (arguments : List Nat) :
    formatted? (t ++ s) arguments = (formatted? s arguments).map (t ++ ·) := by
  induction t with
  | nil => simp
  | cons c t ih =>
    obtain ⟨other, rest⟩ := List.ne_and_not_mem_of_not_mem_cons plain
    have step : formatted? (c :: (t ++ s)) arguments =
        (formatted? (t ++ s) arguments).map (c :: ·) := by
      rw [formatted?] <;> intros <;> exact other ‹c = '%'›.symm
    rw [List.cons_append, step, ih rest, Option.map_map]
    rfl

theorem formatted?_plain {t : Text} (plain : '%' ∉ t) (arguments : List Nat) :
    formatted? t arguments = some t := by
  have whole := formatted?_append plain [] arguments
  rw [List.append_nil] at whole
  rw [whole, formatted?]
  simp

/-- A directive in the place of the index writes the index there. -/
theorem formatted?_substituteIndex (plain : '%' ∉ name) (n : Nat) :
    formatted? (substituteIndex name "%0d") [n] = some (substituteIndex name (decimal n)) := by
  rcases substituteIndex_cases name with ⟨-, same⟩ | ⟨before, after, -, split, written⟩
  · rw [same, same, formatted?_plain plain]
  · rw [split, List.mem_append, List.mem_cons, not_or, not_or] at plain
    obtain ⟨first, -, last⟩ := plain
    have directive : formatted? ("%0d" ++ after) [n] = some (decimal n ++ after) := by
      change (formatted? after []).map (decimal n ++ ·) = _
      rw [formatted?_plain last]
      rfl
    rw [written, written, List.append_assoc, formatted?_append first, directive,
      List.append_assoc]
    rfl

namespace RegisterMap

theorem instanceLines_of_range {r : ConcreteRegister} {range : IndexRange}
    (given : r.range = some range) :
    instanceLines r = ["      for (int i=0; i<" ++ decimal range.length ++ "; i++) begin",
      "        this." ++ r.name ++ "_R[i] = new($sformatf(\"" ++ substituteIndex r.name "%0d" ++
        "\", " ++ indexText range.first ++ "), " ++
        (hexText (byteAddress (firstAddress r range)) ++ " + " ++ hexText r.increment ++
          " * i * 4" ++ argumentsText r.parameters.toList ++ ", this);"), "      end"] := by
  unfold instanceLines
  rw [given]
  simp only [List.append_assoc]

/-- A name without an `n` stays as it is. In any other name the index is written at one place, which
the name tells, so other indices give other names; and what a loop prints for a register with a
range is formatted to its name at each index. -/
theorem substituteIndex_exact :
    (∀ name : Text,
      ('n' ∉ name ∧ ∀ index, substituteIndex name index = name) ∨
      ∃ k, Picked 'n' Char.isLower name k ∧
        (∀ index, substituteIndex name index = name.take k ++ index ++ name.drop (k + 1)) ∧
        (∀ j, (∀ index, substituteIndex name index =
          name.take j ++ index ++ name.drop (j + 1)) → j = k) ∧
        Function.Injective (substituteIndex name) ∧
        Picked 'n'.toUInt8 isLowerByte (bytes name) (byteOffset name k) ∧
        ∀ index, bytes (substituteIndex name index) =
          (bytes name).take (byteOffset name k) ++ bytes index ++
            (bytes name).drop (byteOffset name k + 1)) ∧
    ∀ (r : ConcreteRegister) (range : IndexRange), r.range = some range → '%' ∉ r.name →
      (∃ header rest close,
        instanceLines r = [header, "        this." ++ r.name ++ "_R[i] = new($sformatf(\"" ++
          substituteIndex r.name "%0d" ++ "\", " ++ indexText range.first ++ "), " ++ rest,
          close]) ∧
      ∀ n, formatted? (substituteIndex r.name "%0d") [n] =
        some (substituteIndex r.name (decimal n)) := by
  refine ⟨fun name => ?_, fun r range given plain => ?_⟩
  · rcases substituteIndex_cases name with absent | ⟨before, after, found, split, written⟩
    · exact .inl absent
    have mark : name[before.length]? = some 'n' := by
      rw [split]
      simp
    obtain ⟨inside, -⟩ := List.getElem?_eq_some_iff.mp mark
    have written (index : Text) : substituteIndex name index =
        name.take before.length ++ index ++ name.drop (before.length + 1) := by
      rw [written, split]
      simp
    have picked := picked_of_placeholder? found
    refine .inr ⟨before.length, picked, written, fun j also => ?_, fun i j same => ?_,
      picked.bytes (by decide) tells_isLowerByte, fun index => ?_⟩
    · have distinct : 'n' ≠ 'm' := by decide
      exact eq_of_put_at distinct inside fun index => (also index).symm.trans (written index)
    · exact substituteIndex_inj (List.mem_of_getElem? mark) same
    · rw [written]
      exact bytes_substituteIndex mark index
  · exact ⟨⟨_, _, _, instanceLines_of_range given⟩, formatted?_substituteIndex plain⟩

/-- A register for each of three lanes, whose name has an `n` behind an accented letter. -/
def laneRegister : ConcreteRegister := ⟨"dén_LANEn", 16, 1, [], [], some ⟨2, 5⟩, .empty⟩

theorem substituteIndex_exact_laneRegister :
    laneRegister.range = some ⟨2, 5⟩ ∧ '%' ∉ laneRegister.name ∧
      Picked 'n' Char.isLower laneRegister.name 2 ∧
      Picked 'n'.toUInt8 isLowerByte (bytes laneRegister.name) 3 ∧
      (∃ header rest close,
        instanceLines laneRegister = [header, "        this." ++ laneRegister.name ++
          "_R[i] = new($sformatf(\"" ++ "dé%0d_LANEn" ++ "\", " ++ "i+2" ++ "), " ++ rest,
          close]) ∧
      formatted? "dé%0d_LANEn" [4] = some "dé4_LANEn".toList := by
  have found : placeholder? laneRegister.name = some ("dé".toList, "_LANEn".toList) := by decide
  have written (index : Text) : substituteIndex laneRegister.name index =
      laneRegister.name.take 2 ++ index ++ laneRegister.name.drop 3 := by
    unfold substituteIndex
    rw [found]
    rfl
  obtain ⟨place, lines⟩ := substituteIndex_exact
  obtain ⟨loop, formats⟩ := lines laneRegister ⟨2, 5⟩ rfl (by decide)
  refine ⟨rfl, by decide, ?_⟩
  rcases place laneRegister.name with ⟨absent, -⟩ | ⟨k, picked, -, only, -, picked', -⟩
  · exact absurd absent (by decide)
  · obtain rfl : 2 = k := only 2 written
    exact ⟨picked, picked', loop, (formats 4).trans (by decide)⟩

end RegisterMap

end Gateware
