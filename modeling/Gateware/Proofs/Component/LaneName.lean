import Gateware.Proofs.Component.Lanes
import Gateware.Proofs.Text.Literal
import Gateware.Proofs.Text.Numeral

/-!
# The parts of a lane name

A lane name is the start of a line up to an underscore, a kind, decimal digits and a polarity, and
it is so in one way only (`ofText?_exact`): what stands before the digits does not end in a digit,
and its last character tells the kind. A wildcard and the digits therefore tell the name.
-/

namespace Gateware

open Text

namespace LaneName

/-- What may stand behind the number. -/
def polarities : List Text := [[], "_p", "_n"]

/-- The parts of a lane name; an underscore stands between `lead` and `kind`. -/
structure Split where
  lead : Text
  kind : Text
  digits : Text
  polarity : Text
deriving DecidableEq

namespace Split

/-- What stands before the digits. -/
def stem (s : Split) : Text := s.lead ++ '_' :: s.kind

def name (s : Split) : Text := s.stem ++ s.digits ++ s.polarity

def wildcard (s : Split) : Text := s.stem ++ ['*'] ++ s.polarity

/-- The parts are those of the name of the lane `index`. -/
structure Tells (s : Split) (index : Nat) : Prop where
  oneLine : '\n' ∉ s.lead
  kind : s.kind ∈ kinds
  numeral : Numeral 10 s.digits index
  small : index < 2 ^ 32
  polarity : s.polarity ∈ polarities

end Split

/-! ### The polarity -/

theorem stripEnd?_eq_none {p s : Text} {c : Char} (last : s.getLast? = some c)
    (other : p.getLast? ≠ some c) (nonempty : p ≠ []) : stripEnd? p s = none := by
  rw [Option.eq_none_iff_forall_ne_some]
  intro r found
  rw [stripEnd?_eq_some_iff] at found
  rw [found, List.getLast?_append_of_ne_nil _ nonempty] at last
  exact other last

/-- What ends otherwise than a polarity does keeps the one behind it apart. -/
theorem cutPolarity_append {numbered polarity : Text} {c : Char}
    (last : numbered.getLast? = some c) (other : c ≠ 'p' ∧ c ≠ 'n')
    (known : polarity ∈ polarities) :
    cutPolarity (numbered ++ polarity) = (numbered, polarity) := by
  have miss {sign : Text} {d : Char} (ends : sign.getLast? = some d) (apart : c ≠ d) :
      sign.getLast? ≠ some c := fun same => apart (Option.some.inj (same.symm.trans ends))
  simp only [polarities, List.mem_cons, List.not_mem_nil, or_false] at known
  unfold cutPolarity
  rcases known with rfl | rfl | rfl
  · rw [List.append_nil, stripEnd?_eq_none last (miss (d := 'p') (by decide) other.1) (by decide),
      stripEnd?_eq_none last (miss (d := 'n') (by decide) other.2) (by decide)]
  · rw [stripEnd?_eq_some_iff.mpr rfl]
  · have ends : (numbered ++ ("_n" : Text)).getLast? = some 'n' := by
      rw [List.getLast?_append_of_ne_nil _ (by decide)]
      decide
    rw [stripEnd?_eq_none ends (by decide) (by decide), stripEnd?_eq_some_iff.mpr rfl]

theorem cutPolarity_spec (name : Text) :
    (cutPolarity name).1 ++ (cutPolarity name).2 = name ∧ (cutPolarity name).2 ∈ polarities := by
  have none : ([] : Text) ∈ polarities := List.mem_cons_self
  have positive : ("_p" : Text) ∈ polarities := by decide
  have negative : ("_n" : Text) ∈ polarities := by decide
  unfold cutPolarity
  split
  · rename_i r found
    exact ⟨(stripEnd?_eq_some_iff.mp found).symm, positive⟩
  · split
    · rename_i r found
      exact ⟨(stripEnd?_eq_some_iff.mp found).symm, negative⟩
    · exact ⟨List.append_nil name, none⟩

/-! ### The digits -/

theorem cutDigits_append {stem digits : Text} (stop : ∀ c ∈ stem.getLast?, isDecDigit c = false)
    (run : ∀ c ∈ digits, isDecDigit c = true) : cutDigits (stem ++ digits) = (stem, digits) := by
  have run' : ∀ c ∈ digits.reverse, isDecDigit c = true :=
    fun c hc => run c (List.mem_reverse.mp hc)
  have stop' : ∀ c ∈ stem.reverse.head?, isDecDigit c = false := by
    rwa [List.head?_reverse]
  unfold cutDigits trimEndBy
  rw [List.reverse_append, dropWhile_append_stop run' stop', takeWhile_append_stop run' stop',
    List.reverse_reverse, List.reverse_reverse]

theorem cutDigits_spec (numbered : Text) :
    (cutDigits numbered).1 ++ (cutDigits numbered).2 = numbered := by
  unfold cutDigits trimEndBy
  rw [← List.reverse_append, List.takeWhile_append_dropWhile, List.reverse_reverse]

/-! ### The stem -/

theorem isStem_iff {stem : Text} :
    isStem stem = true ↔ ∃ lead kind, stem = lead ++ '_' :: kind ∧ '\n' ∉ lead ∧
      kind ∈ kinds := by
  unfold isStem
  rw [Bool.and_eq_true, List.any_eq_true, Bool.not_eq_true', List.contains_eq_mem,
    decide_eq_false_iff_not]
  have plain : ∀ kind ∈ kinds, '\n' ∉ '_' :: kind := by decide
  constructor
  · rintro ⟨⟨kind, known, ends⟩, oneLine⟩
    obtain ⟨lead, rfl⟩ := endsWith_iff.mp ends
    exact ⟨lead, kind, rfl, fun broken => oneLine (List.mem_append_left _ broken), known⟩
  · rintro ⟨lead, kind, rfl, oneLine, known⟩
    refine ⟨⟨kind, known, endsWith_append lead _⟩, ?_⟩
    rw [List.mem_append, not_or]
    exact ⟨oneLine, plain kind known⟩

/-- The last character tells the kind. -/
theorem stem_inj {lead lead' kind kind' : Text} (known : kind ∈ kinds) (known' : kind' ∈ kinds)
    (same : lead ++ '_' :: kind = lead' ++ '_' :: kind') : lead = lead' ∧ kind = kind' := by
  have ends := congrArg List.getLast? same
  rw [List.getLast?_append_of_ne_nil _ (List.cons_ne_nil '_' kind),
    List.getLast?_append_of_ne_nil _ (List.cons_ne_nil '_' kind')] at ends
  have told : ∀ k ∈ kinds, ∀ k' ∈ kinds,
      ('_' :: k).getLast? = ('_' :: k').getLast? → k = k' := by decide
  obtain rfl := told kind known kind' known' ends
  exact ⟨List.append_cancel_right same, rfl⟩

/-! ### The name -/

namespace Split.Tells

variable {s s' : Split} {index index' : Nat}

theorem cutDigits_eq (h : s.Tells index) : cutDigits (s.stem ++ s.digits) = (s.stem, s.digits) := by
  refine cutDigits_append ?_ (h.numeral.all_digits (by decide))
  have ends : ∀ k ∈ kinds, ('_' :: k).getLast?.any isDecDigit = false := by decide
  have other := ends s.kind h.kind
  unfold stem
  rw [List.getLast?_append_of_ne_nil _ (List.cons_ne_nil '_' s.kind)]
  intro c last
  rwa [Option.mem_def.mp last] at other

theorem exists_last (h : s.Tells index) :
    ∃ c, (s.stem ++ s.digits).getLast? = some c ∧ isDecDigit c = true := by
  refine ⟨s.digits.getLast h.numeral.ne_nil, ?_, ?_⟩
  · rw [List.getLast?_append_of_ne_nil _ h.numeral.ne_nil, List.getLast?_eq_some_getLast]
  · exact h.numeral.all_digits (by decide) _ (List.getLast_mem h.numeral.ne_nil)

theorem cutPolarity_eq (h : s.Tells index) :
    cutPolarity s.name = (s.stem ++ s.digits, s.polarity) := by
  obtain ⟨c, last, digit⟩ := h.exists_last
  refine cutPolarity_append last ⟨?_, ?_⟩ h.polarity <;>
  · rintro rfl
    exact absurd digit (by decide)

theorem ofText?_eq (h : s.Tells index) : ofText? s.name = some ⟨s.wildcard, s.digits, index⟩ := by
  have stem : isStem s.stem = true := isStem_iff.mpr ⟨s.lead, s.kind, rfl, h.oneLine, h.kind⟩
  have number : readNat? 10 indexBound s.digits = some index :=
    (readNat?_eq_some_iff (by decide)).mpr ⟨h.numeral, h.small⟩
  unfold ofText?
  simp only [h.cutPolarity_eq, h.cutDigits_eq, stem, number, if_true, Option.map_some]
  rfl

/-- There is one way only to read a name. -/
theorem unique (h : s.Tells index) (h' : s'.Tells index') (same : s.name = s'.name) : s = s' := by
  have cut := h.cutPolarity_eq
  rw [same, h'.cutPolarity_eq] at cut
  obtain ⟨numbered, polarity⟩ := Prod.mk.inj cut
  have cut' := h.cutDigits_eq
  rw [← numbered, h'.cutDigits_eq] at cut'
  obtain ⟨stem, digits⟩ := Prod.mk.inj cut'
  obtain ⟨lead, kind⟩ := stem_inj h.kind h'.kind stem.symm
  cases s
  cases s'
  exact (Split.mk.injEq ..).mpr ⟨lead, kind, digits.symm, polarity.symm⟩

/-- The last star stands for the digits, whatever the name has before them. -/
theorem name_eq_of_wildcard (h : s.Tells index) (h' : s'.Tells index')
    (same : s.wildcard = s'.wildcard) (digits : s.digits = s'.digits) : s.name = s'.name := by
  have starless : ∀ p ∈ polarities, '*' ∉ p := by decide
  have cut {t : Split} {i : Nat} (told : t.Tells i) :
      cutLast? '*' t.wildcard = some (t.stem, t.polarity) := by
    unfold wildcard
    rw [List.append_assoc, List.singleton_append,
      cutLast?_append (starless t.polarity told.polarity)]
  have parts := cut h
  rw [same, cut h'] at parts
  obtain ⟨stem, polarity⟩ := Prod.mk.inj (Option.some.inj parts)
  unfold name
  rw [stem, digits, polarity]

end Split.Tells

theorem split_of_ofText? {name : Text} {n : LaneName} (h : ofText? name = some n) :
    ∃ s : Split, s.Tells n.index ∧ s.name = name ∧ n = ⟨s.wildcard, s.digits, n.index⟩ := by
  obtain ⟨whole, polarity⟩ := cutPolarity_spec name
  have numbered := cutDigits_spec (cutPolarity name).1
  unfold ofText? at h
  simp only at h
  split at h
  · rename_i stem
    obtain ⟨lead, kind, shape, oneLine, known⟩ := isStem_iff.mp stem
    obtain ⟨index, number, rfl⟩ := Option.map_eq_some_iff.mp h
    obtain ⟨numeral, small⟩ := (readNat?_eq_some_iff (by decide)).mp number
    refine ⟨⟨lead, kind, (cutDigits (cutPolarity name).1).2, (cutPolarity name).2⟩,
      ⟨oneLine, known, numeral, small, polarity⟩, ?_, ?_⟩
    · unfold Split.name Split.stem
      rw [← shape, numbered, whole]
    · unfold Split.wildcard Split.stem
      rw [← shape]
  · cases h

theorem eq_of_wildcard {name name' : Text} {n n' : LaneName} (h : ofText? name = some n)
    (h' : ofText? name' = some n') (wildcard : n.wildcard = n'.wildcard)
    (digits : n.digits = n'.digits) : name = name' := by
  obtain ⟨s, told, rfl, shape⟩ := split_of_ofText? h
  obtain ⟨s', told', rfl, shape'⟩ := split_of_ofText? h'
  rw [shape, shape'] at wildcard digits
  exact told.name_eq_of_wildcard told' wildcard digits

/-- A text is a lane name exactly when it splits into the parts of one. There is then one such
split, which tells the wildcard, the digits and the number, and of the lanes under one wildcard
those with different names have different digits. -/
theorem ofText?_exact :
    (∀ name : Text, (ofText? name).isSome ↔ ∃ s : Split, s.name = name ∧ ∃ i, s.Tells i) ∧
    (∀ (s : Split) (i : Nat), s.Tells i → ofText? s.name = some ⟨s.wildcard, s.digits, i⟩ ∧
      ∀ (s' : Split) (i' : Nat), s'.Tells i' → s'.name = s.name → s' = s) ∧
    (∀ (name name' : Text) (n n' : LaneName), ofText? name = some n → ofText? name' = some n' →
      n.wildcard = n'.wildcard → n.digits = n'.digits → name = name') ∧
    ∀ {α : Type} [Laned α] (items : List α) (w : Text), ∀ a ∈ items, ∀ b ∈ items,
      ∀ (n m : LaneName), Lanes.IsLane a n → Lanes.IsLane b m → n.wildcard = w → m.wildcard = w →
        Laned.name a ≠ Laned.name b → n.digits ≠ m.digits := by
  refine ⟨fun name => ?_, fun s i told => ⟨told.ofText?_eq, ?_⟩, fun name name' n n' h h' => ?_, ?_⟩
  · rw [Option.isSome_iff_exists]
    constructor
    · rintro ⟨n, h⟩
      obtain ⟨s, told, named, -⟩ := split_of_ofText? h
      exact ⟨s, named, n.index, told⟩
    · rintro ⟨s, rfl, i, told⟩
      exact ⟨_, told.ofText?_eq⟩
  · exact fun s' i' told' same => told'.unique told same
  · exact eq_of_wildcard h h'
  · intro α _ items w a _ b _ n m lane lane' under under' apart digits
    exact apart (eq_of_wildcard lane.1 lane'.1 (under.trans under'.symm) digits)

/-- The stem of a name may hold underscores, numbers and kinds of its own. -/
def receiverSplit : Split := ⟨"data_1_rx", "phy", "07", "_n"⟩

theorem ofText?_exact_receiverSplit :
    receiverSplit.Tells 7 ∧
      ofText? "data_1_rx_phy07_n" = some ⟨"data_1_rx_phy*_n", "07", 7⟩ ∧
      (∀ (s : Split) (i : Nat), s.Tells i → s.name = "data_1_rx_phy07_n".toList →
        s = receiverSplit) ∧
      ofText? "lane_7" = some ⟨"lane_*", "7", 7⟩ ∧ ofText? "lane_07" = some ⟨"lane_*", "07", 7⟩ ∧
      ("7" : Text) ≠ "07" := by
  have told : receiverSplit.Tells 7 := by
    have read : readNat? 10 8 receiverSplit.digits = some 7 := by decide
    exact ⟨by decide, by decide, ((readNat?_eq_some_iff (by decide)).mp read).1, by decide, by decide⟩
  have short : ofText? "lane_7" = some ⟨"lane_*", "7", 7⟩ := by decide
  have padded : ofText? "lane_07" = some ⟨"lane_*", "07", 7⟩ := by decide
  obtain ⟨-, splits, -, lanes⟩ := ofText?_exact
  obtain ⟨read, only⟩ := splits receiverSplit 7 told
  have apart := lanes
    [(⟨"lane_7", "in", some "L > 7", none⟩ : Port), ⟨"lane_07", "in", some "L > 07", none⟩]
    "lane_*" _ List.mem_cons_self _ (List.mem_cons_of_mem _ List.mem_cons_self)
    ⟨"lane_*", "7", 7⟩ ⟨"lane_*", "07", 7⟩
    (Lanes.confirmed?_eq_some_iff.mp (by decide +kernel))
    (Lanes.confirmed?_eq_some_iff.mp (by decide +kernel)) rfl rfl (by decide)
  exact ⟨told, read, only, short, padded, apart⟩

end LaneName

end Gateware
