import Gateware.Makefile
import Gateware.Proofs.Path.Fork
import Gateware.Repository.Basic

/-!
# Relative paths

A relative path climbs what the other path has behind the fork of the two and goes down what its
target has there. Its text reads as the same path, and it leads back whenever the steps up it takes
undo names (`relativeTo_leads_back`). So the include line at the end of a makefile leads from there
to the common rules, whatever the place of the makefile.
-/

namespace Gateware

open Text

namespace Text

theorem joinWith_concat (sep : Text) {l : List Text} (h : l ≠ []) (w : Text) :
    joinWith sep (l ++ [w]) = joinWith sep l ++ sep ++ w := by
  induction l with
  | nil => exact absurd rfl h
  | cons v l ih =>
    cases l with
    | nil => rfl
    | cons u l =>
      change v ++ sep ++ joinWith sep (u :: l ++ [w]) = _
      rw [ih (List.cons_ne_nil u l)]
      simp [joinWith]

end Text

namespace Path

variable {p b : Path} {l : List PathPart} {names : List Text}

/-! ### The text of a relative path -/

theorem getLast?_joinWith_text (h : ∀ c ∈ l, c.Inner) (started : l ≠ []) :
    ∃ a, (joinWith [separator] (l.map PathPart.text)).getLast? = some a ∧ a ≠ separator := by
  obtain ⟨before, c, rfl⟩ := (List.eq_nil_or_concat' l).resolve_left started
  have last : c.Inner := h c (List.mem_append_right _ List.mem_cons_self)
  obtain ⟨a, final⟩ : ∃ a, c.text.getLast? = some a :=
    ⟨_, List.getLast?_eq_some_getLast last.text_ne_nil⟩
  refine ⟨a, ?_, fun ends => last.whole (ends ▸ List.mem_of_getLast? final)⟩
  rw [List.map_append]
  by_cases first : before = []
  · subst first
    exact final
  · rw [List.map_singleton, joinWith_concat _ (List.map_eq_nil_iff.not.mpr first),
      List.getLast?_append, final]
    rfl

/-- Steps are written as the text in which they are joined. -/
theorem text_ofParts_inner (h : ∀ c ∈ l, c.Inner) :
    (ofParts l).text = joinWith [separator] (l.map PathPart.text) := by
  induction l using List.reverseRecOn with
  | nil => rfl
  | append_singleton l c ih =>
    obtain ⟨before, last⟩ := List.forall_mem_append.mp h
    have c_inner := last c List.mem_cons_self
    have built : ofParts (l ++ [c]) = (ofParts l).join c.text := by
      unfold ofParts joinParts
      rw [List.foldl_append]
      rfl
    have relative : c.text.head? ≠ some separator :=
      fun head => c_inner.whole (List.mem_of_mem_head? head)
    rw [built, join, if_neg relative, ih before, List.map_append]
    by_cases first : l = []
    · subst first
      rfl
    · obtain ⟨a, final, other⟩ := getLast?_joinWith_text before first
      rw [if_neg, List.map_singleton, joinWith_concat _ (List.map_eq_nil_iff.not.mpr first),
        List.append_assoc]
      · rfl
      · rintro (empty | ends)
        · rw [empty] at final
          cases final
        · exact other (Option.some.inj (final.symm.trans ends))

theorem mk_toSlash_ofParts (h : ∀ c ∈ l, c.Inner) : Path.mk (ofParts l).toSlash = ofParts l := by
  rw [toSlash_ofParts_inner h, ← text_ofParts_inner h]

/-! ### Include lines -/

theorem steps_of_names (h : p.parts = names.map .name) :
    p.steps = names.map .name ∧ p.isAbsolute = false ∧ p.normalize.parts = names.map .name := by
  refine ⟨by rw [steps_eq, h, filter_names], ?_, ?_⟩
  · rw [Bool.eq_false_iff, Ne, isAbsolute_iff, h]
    simp
  · rw [parts_normalize, h]
    exact reduce_names [] names

/-- The included file is found from any directory that both it and the makefile are below. -/
theorem includeLine_leads (d : Path) {key file : Text} {names' : List Text}
    (hk : (Path.mk key).parts = names.map .name) (hf : (Path.mk file).parts = names'.map .name) :
    ∃ target : Text, Makefile.includeLine file key = "include " ++ target ∧
      ((d.join key).join target).normalize = (d.join file).normalize := by
  obtain ⟨key_steps, key_relative, key_normal⟩ := steps_of_names hk
  obtain ⟨file_steps, file_relative, file_normal⟩ := steps_of_names hf
  refine ⟨_, rfl, ?_⟩
  have inner : ∀ c ∈ route (names'.map .name) (names.map .name), c.Inner :=
    inner_route (fun c hc => inner_of_mem_steps (file_steps ▸ hc)) _
  have head {x : Text} (relative : (Path.mk x).isAbsolute = false) : x.head? ≠ some separator :=
    beq_eq_false_iff_ne.mp relative
  refine congrArg ofParts ?_
  unfold relativeTo
  rw [key_normal, file_normal, toSlash_ofParts_inner inner, reduce_join (head?_joinWith_text inner),
    steps_joinWith_text inner, parts_normalize, reduce_join (head key_relative),
    reduce_append_reduce, key_steps, reduce_route, reduce_join (head file_relative), file_steps]

theorem getLast?_flatten_concat {α : Type} (front : List (List α)) (last : α) :
    (front ++ [[last]]).flatten.getLast? = some last := by simp

theorem names_projectRules (v : Vendor) :
    (Path.mk ("scripts/project-" ++ v.name ++ ".mk")).parts =
      ["scripts".toList, "project-".toList ++ v.name ++ ".mk".toList].map .name := by
  cases v <;> decide

/-- A relative path takes no detour, reads as it is written, and leads back exactly when it climbs
over no step up; the include lines of libraries and projects lead to the rules. -/
theorem relativeTo_leads_back :
    (∀ p b : Path, p.isAbsolute = b.isAbsolute →
      ∃ common onward back, Fork p.normalize.parts b.normalize.parts common onward back ∧
        (p.relativeTo b).parts = List.replicate back.length .up ++ onward ∧
        Path.mk (p.relativeTo b).toSlash = p.relativeTo b ∧
        ((b.join (p.relativeTo b).text).normalize = p.normalize ↔ .up ∉ back)) ∧
    (∀ (r : Repository) (key : Text) (names : List Text) (l : Library) (stamp : Stamp),
      (Path.mk key).parts = names.map .name →
      ∃ target : Text,
        (Makefile.ofLibrary key l stamp).getLast? = some ("include " ++ target) ∧
        ((r.libraryDirectory.join key).join target).normalize =
          (r.libraryDirectory.join "scripts/library.mk").normalize) ∧
    ∀ (r : Repository) (key : Text) (names : List Text) (project : Project) (stamp : Stamp),
      (Path.mk key).parts = names.map .name →
      ∃ target : Text,
        (Makefile.ofProject key project stamp).getLast? = some ("include " ++ target) ∧
        ((r.projectDirectory.join key).join target).normalize =
          (r.projectDirectory.join
            ("scripts/project-" ++ project.vendor.name ++ ".mk")).normalize := by
  refine ⟨fun p b same => ?_, fun r key names l stamp normal => ?_,
    fun r key names project stamp normal => ?_⟩
  · obtain ⟨common, onward, back, fork⟩ := exists_fork p.normalize.parts b.normalize.parts
    have inner := inner_climb (fork.inner same) back.length
    have written : p.relativeTo b = ofParts (List.replicate back.length .up ++ onward) :=
      congrArg ofParts fork.route
    have reread : Path.mk (p.relativeTo b).toSlash = p.relativeTo b :=
      written ▸ mk_toSlash_ofParts inner
    refine ⟨common, onward, back, fork, ?_, reread, ?_⟩
    · rw [written]
      exact parts_ofParts ⟨[], _, rfl, .inl rfl, inner⟩
    · rw [← reread]
      exact normalize_join_relativeTo_iff same fork
  · have rules : (Path.mk "scripts/library.mk").parts =
        ["scripts".toList, "library.mk".toList].map .name := by decide
    obtain ⟨target, line, leads⟩ := includeLine_leads r.libraryDirectory normal rules
    refine ⟨target, ?_, leads⟩
    rw [← line]
    exact getLast?_flatten_concat [_, _, _, _, _] _
  · obtain ⟨target, line, leads⟩ :=
      includeLine_leads r.projectDirectory normal (names_projectRules project.vendor)
    refine ⟨target, ?_, leads⟩
    rw [← line]
    exact getLast?_flatten_concat [_, _, _, _, _, _] _

/-- From the directory of a board to a script of its device, and from the makefile of a nested
library to the rules. -/
theorem relativeTo_leads_back_boardScript :
    let board : Path := ⟨"projects/fmcomms2/zed"⟩
    let script : Path := ⟨"./projects//fmcomms2/common/../common/bd.tcl"⟩
    (board.join (script.relativeTo board).text).normalize =
        ⟨"projects/fmcomms2/common/bd.tcl"⟩ ∧
      ∃ target : Text,
        (Makefile.ofLibrary "jesd204/rx" ⟨"rx", .empty, .empty⟩ ⟨"0.4.0", [], 2025⟩).getLast? =
          some ("include " ++ target) ∧
        (Path.join ⟨"library/jesd204/rx"⟩ target).normalize = ⟨"library/scripts/library.mk"⟩ := by
  obtain ⟨leads, library, -⟩ := relativeTo_leads_back
  refine ⟨?_, ?_⟩
  · obtain ⟨common, onward, back, fork, -, -, back_iff⟩ :=
      leads ⟨"./projects//fmcomms2/common/../common/bd.tcl"⟩ ⟨"projects/fmcomms2/zed"⟩ (by decide)
    have down : PathPart.up ∉ (Path.mk "projects/fmcomms2/zed").normalize.parts := by decide
    rw [fork.right, List.mem_append, not_or] at down
    exact (back_iff.mpr down.2).trans (by decide)
  · obtain ⟨target, line, found⟩ := library ⟨⟨[]⟩⟩ "jesd204/rx" ["jesd204", "rx"]
      ⟨"rx", .empty, .empty⟩ ⟨"0.4.0", [], 2025⟩ (by decide)
    exact ⟨target, line, found⟩

end Path

end Gateware
