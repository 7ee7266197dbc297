import DeviceTwin.Proofs.Validation.References
import DeviceTwin.Validation.Check

/-!
# Suggestions change no finding

Two runs of the checks that differ only in whether suggestions are wanted find the same
defects. `withoutSuggestions_check_congr` says so for the lists with every suggestion taken
off, and `check_quiet` that a run without suggestions gives just such a list. Whether a
description is valid depends on the number of defects only, so it is the same for both.
-/

namespace DeviceTwin

/-- The suggestion that a defect carries. -/
def Defect.suggestion? : Defect → Option String
  | .invalidReference _ _ _ _ suggestion => suggestion
  | _ => none

theorem Defect.withoutSuggestion_eq_self {d : Defect} (h : d.suggestion? = none) :
    d.withoutSuggestion = d := by
  cases d with
  | invalidReference sourceKind sourceName targetKind targetName suggestion =>
      obtain rfl : suggestion = none := h
      rfl
  | _ => rfl

namespace Defects

/-- No defect carries a suggestion. -/
def Bare (ds : Defects) : Prop :=
  ∀ d ∈ ds, d.suggestion? = none

/-- Only a reference carries a suggestion. -/
theorem bare_iff {ds : Defects} : ds.Bare ↔ Bare (ds.ofKind .invalidReference) := by
  constructor
  · exact fun h d hd => h d (List.mem_of_mem_filter hd)
  · intro h d hd
    cases d with
    | invalidReference => exact h _ (List.mem_filter.2 ⟨hd, rfl⟩)
    | _ => rfl

theorem Bare.withoutSuggestions_eq {ds : Defects} (h : ds.Bare) : ds.withoutSuggestions = ds :=
  (List.map_congr_left fun d hd => Defect.withoutSuggestion_eq_self (h d hd)).trans
    (List.map_id' ds)

end Defects

namespace Validation

open Defects

variable {s s' : ValidationSettings} {m : Model}

/-! ### References are told of at the sites only -/

theorem ofKind_structureDefects (expected : String) (m : Model) :
    (structureDefects expected m).ofKind .invalidReference = [] := by
  have hcontext : (contextDefects expected m).ofKind .invalidReference = [] := by
    rw [contextDefects]
    split_ifs <;> rfl
  have hid : (idDefects m).ofKind .invalidReference = [] := by
    rw [idDefects]
    split <;> rfl
  have hempty : ∀ field text, (emptyDefects field text).ofKind .invalidReference = [] := by
    intro field text
    rw [emptyDefects]
    split_ifs <;> rfl
  have hkind : (kindDefects m).ofKind .invalidReference = [] := by
    rw [kindDefects]
    split_ifs <;> rfl
  simp only [structureDefects, ofKind_append, hcontext, hid, hempty, hkind, List.append_nil]

theorem ofKind_reachabilityDefects (machine : StateMachine) :
    (reachabilityDefects machine).ofKind .invalidReference = [] := by
  rw [reachabilityDefects]
  split <;> rfl

section Check

variable [Suggestion.Matcher] [Text.HashOrder]

/-- Besides repeated names, the references are told of what the search for dangling ones finds. -/
theorem ofKind_check (s : ValidationSettings) (m : Model) :
    (check s m).ofKind .invalidReference =
      ((danglingDefects s m).run Suggestion.Matcher.blank).1.ofKind .invalidReference := by
  rw [check, ofKind_append, ofKind_append, ofKind_structureDefects, referencesDefects,
    ofKind_append, repetitionDefects_eq, ofKind_repetitions, List.nil_append, List.nil_append]
  cases m.stateMachine with
  | none => exact List.append_nil _
  | some machine => simp only [ofKind_reachabilityDefects, List.append_nil]

/-! ### Checks that are not asked for suggestions -/

theorem Site.Tells.suggestion?_eq_none {o : Site} {d : Defect} (h : o.Tells s m d)
    (hs : s.suggestNames = false) : d.suggestion? = none := by
  cases o with
  | reference r =>
      obtain ⟨memory, -, rfl⟩ := h
      rw [suggestion, if_neg (by simp [hs])]
      rfl
  | endpoint =>
      obtain rfl := h
      rfl

theorem check_bare (h : s.suggestNames = false) : Bare (check s m) := by
  rw [bare_iff, ofKind_check, ← bare_iff]
  intro d hd
  obtain ⟨o, -, htells⟩ := Suggestion.exists_left_of_mem (covers_sites s m _ .blank).2 hd
  exact htells.suggestion?_eq_none h

/-! ### Two runs -/

/-- Without their suggestions, the defects depend only on the other two settings. -/
theorem withoutSuggestions_check_congr (hcontext : s.expectedContext = s'.expectedContext)
    (hemitted : s.checkEmittedEvents = s'.checkEmittedEvents) :
    (check s m).withoutSuggestions = (check s' m).withoutSuggestions := by
  simp only [check, withoutSuggestions_append, withoutSuggestions_referencesDefects, hcontext,
    hemitted]

/-- Taking the suggestions off is the same as not asking for them. -/
theorem check_quiet (b : Bool) :
    check { s with suggestNames := false } m =
      (check { s with suggestNames := b } m).withoutSuggestions := by
  have hbare : Bare (check { s with suggestNames := false } m) := check_bare rfl
  rw [← hbare.withoutSuggestions_eq]
  exact withoutSuggestions_check_congr rfl rfl

theorem length_check_eq (s : ValidationSettings) (m : Model) (b : Bool) :
    (check { s with suggestNames := b } m).length =
      (check { s with suggestNames := false } m).length := by
  rw [check_quiet b, Defects.withoutSuggestions, List.length_map]

theorem validate_eq_ok_iff {m' : Model} : validate s m = .ok m' ↔ check s m = [] ∧ m = m' := by
  rw [validate]
  cases check s m <;> simp

/-- Whether suggestions are wanted changes no finding: the lists of defects are of the same
length and agree position by position once the suggestions are taken off, a run without
suggestions carries none, and a description is handed on by both runs or by neither. -/
theorem findings_independent_of_suggestions (s : ValidationSettings) (m : Model) (b b' : Bool) :
    (check { s with suggestNames := b } m).length =
      (check { s with suggestNames := b' } m).length ∧
    (∀ i : ℕ, (check { s with suggestNames := b } m)[i]?.map Defect.withoutSuggestion =
      (check { s with suggestNames := b' } m)[i]?.map Defect.withoutSuggestion) ∧
    (∀ d ∈ check { s with suggestNames := false } m, d.suggestion? = none) ∧
    ∀ m', validate { s with suggestNames := b } m = .ok m' ↔
      validate { s with suggestNames := b' } m = .ok m' := by
  have hlength := (length_check_eq s m b).trans (length_check_eq s m b').symm
  refine ⟨hlength, fun i => ?_, check_bare rfl, fun m' => ?_⟩
  · rw [← List.getElem?_map, ← List.getElem?_map]
    exact congrArg (·[i]?) ((check_quiet b).symm.trans (check_quiet b'))
  · rw [validate_eq_ok_iff, validate_eq_ok_iff, ← List.length_eq_zero_iff, hlength,
      List.length_eq_zero_iff]

end Check

end Validation

end DeviceTwin
