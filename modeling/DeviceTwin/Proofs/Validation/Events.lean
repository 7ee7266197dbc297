import DeviceTwin.Analysis.Usage
import DeviceTwin.Proofs.Validation.Check
import Mathlib.Data.Finset.Card

/-!
# What refers to an event

The checks and the report of what is unused go through a description each in its own way.
They agree on what refers to an event: `missingEvents`, the events that the checks find
missing, are the referenced ones that are not declared. In a valid description nothing is
missing, so every declared event is either referenced or reported as unused.
-/

namespace DeviceTwin

/-- The event that a defect tells of as undeclared. -/
def Defect.missingEvent? : Defect → Option String
  | .invalidReference _ _ .event name _ => some name
  | _ => none

def Defects.missingEvents (ds : Defects) : List String :=
  ds.filterMap Defect.missingEvent?

theorem Defect.missingEvent?_withoutSuggestion (d : Defect) :
    d.withoutSuggestion.missingEvent? = d.missingEvent? := by
  cases d with
  | invalidReference _ _ targetKind _ _ => cases targetKind <;> rfl
  | _ => rfl

theorem Defects.missingEvents_withoutSuggestions (ds : Defects) :
    ds.withoutSuggestions.missingEvents = ds.missingEvents := by
  rw [missingEvents, withoutSuggestions, List.filterMap_map, missingEvents]
  exact congrArg (ds.filterMap ·) (funext Defect.missingEvent?_withoutSuggestion)

namespace Model

/-- The events that fire a transition. -/
def triggerEvents (m : Model) : List String :=
  m.transitions.flatMap fun t => t.trigger.eventName?.toList

/-- The events that a command raises when it is done. -/
def completionEvents (m : Model) : List String :=
  m.commands.flatMap Command.completionNames

end Model

namespace Validation

/-! ### Sites that name an event -/

/-- The event that a site names. -/
def Site.event? : Site → Option String
  | .reference ⟨_, _, .event, name⟩ => some name
  | _ => none

theorem Site.missingEvent?_violation (o : Site) : o.violation.missingEvent? = o.event? := by
  cases o with
  | reference r =>
      obtain ⟨_, _, targetKind, _⟩ := r
      cases targetKind <;> rfl
  | endpoint _ _ _ => rfl

theorem Site.dangling_iff_of_event {m : Model} {o : Site} {name : String}
    (h : o.event? = some name) : o.Dangling m ↔ name ∉ m.eventNames := by
  cases o with
  | reference r =>
      obtain ⟨_, _, targetKind, _⟩ := r
      cases targetKind <;> cases h
      exact Iff.rfl
  | endpoint _ _ _ => exact nomatch h

/-- The events that some sites name. -/
def eventsOf (os : List Site) : List String :=
  os.filterMap Site.event?

theorem mem_missingEvents_violations {m : Model} {os : List Site} {name : String} :
    name ∈ (violations m os).missingEvents ↔ name ∈ eventsOf os ∧ name ∉ m.eventNames := by
  simp only [Defects.missingEvents, violations, eventsOf, List.mem_filterMap, List.mem_map,
    List.mem_filter, decide_eq_true_eq, exists_exists_and_eq_and, Site.missingEvent?_violation]
  constructor
  · rintro ⟨o, ⟨ho, hdangling⟩, hname⟩
    exact ⟨⟨o, ho, hname⟩, (Site.dangling_iff_of_event hname).1 hdangling⟩
  · rintro ⟨⟨o, ho, hname⟩, hundeclared⟩
    exact ⟨o, ⟨ho, (Site.dangling_iff_of_event hname).2 hundeclared⟩, hname⟩

section EventsOf

theorem eventsOf_append (os os' : List Site) : eventsOf (os ++ os') = eventsOf os ++ eventsOf os' :=
  List.filterMap_append

theorem eventsOf_flatMap {α : Type} (f : α → List Site) (as : List α) :
    eventsOf (as.flatMap f) = as.flatMap fun a => eventsOf (f a) := by
  induction as with
  | nil => rfl
  | cons a as ih => rw [List.flatMap_cons, List.flatMap_cons, eventsOf_append, ih]

theorem eventsOf_triggerSites (t : Transition) :
    eventsOf (triggerSites t) = t.trigger.eventName?.toList := by
  rw [triggerSites]
  cases t.trigger <;> rfl

theorem eventsOf_emittedSites (checked : Bool) (kind : ElementKind) (name : String)
    (emitted : Option String) :
    eventsOf (emittedSites checked kind name emitted) =
      if checked then emitted.toList else [] := by
  cases emitted <;> cases checked <;> rfl

theorem eventsOf_transitionSites (checked : Bool) (t : Transition) :
    eventsOf (transitionSites checked t) =
      t.trigger.eventName?.toList ++ if checked then t.emitted?.toList else [] := by
  rw [transitionSites, eventsOf_append, eventsOf_append, eventsOf_triggerSites,
    eventsOf_emittedSites]
  rfl

theorem eventsOf_commandSites (c : Command) : eventsOf (commandSites c) = c.completionNames := by
  rw [eventsOf, commandSites, List.filterMap_map]
  exact List.filterMap_some

/-- The events named by the sites of a description, in the order of the checks. -/
theorem eventsOf_sites (checked : Bool) (m : Model) :
    eventsOf (sites checked m) =
      (m.transitions.flatMap fun t =>
        t.trigger.eventName?.toList ++ if checked then t.emitted?.toList else []) ++
      m.completionEvents ++
      m.rules.flatMap fun r => if checked then r.action.emitEvent.toList else [] := by
  cases hm : m.stateMachine with
  | none =>
      simp only [sites, hm, Model.transitions, eventsOf_append, eventsOf_flatMap,
        eventsOf_commandSites, ruleSites, eventsOf_emittedSites]
      rfl
  | some machine =>
      simp only [sites, hm, Model.transitions, machineSites, eventsOf_append, eventsOf_flatMap,
        eventsOf_transitionSites, eventsOf_commandSites, ruleSites, eventsOf_emittedSites]
      rfl

/-- With the events of actions, the sites name just what is referenced. -/
theorem mem_eventsOf_sites_checked {m : Model} {name : String} :
    name ∈ eventsOf (sites true m) ↔ name ∈ m.referencedEvents := by
  rw [eventsOf_sites, Model.referencedEvents, List.mem_append, List.mem_append, List.mem_append,
    List.mem_append, or_right_comm]
  exact Iff.rfl

theorem mem_eventsOf_sites_unchecked {m : Model} {name : String} :
    name ∈ eventsOf (sites false m) ↔ name ∈ m.triggerEvents ++ m.completionEvents := by
  simp [eventsOf_sites, Model.triggerEvents]

end EventsOf

/-! ### What is missing and what is unused -/

section Agreement

variable {s : ValidationSettings} {m : Model}

theorem missingEvents_append (ds ds' : Defects) :
    Defects.missingEvents (ds ++ ds') = ds.missingEvents ++ ds'.missingEvents :=
  List.filterMap_append

theorem missingEvents_repetitions (m : Model) : (repetitions m).missingEvents = [] :=
  List.filterMap_eq_nil_iff.2 (forall_mem_repetitions fun _ _ => rfl)

/-- The unused events are the declared ones that are not referenced, each once. -/
theorem length_unusedEvents (m : Model) :
    m.unusedEvents.length = (m.eventNames.toFinset \ m.referencedEvents.toFinset).card := by
  have hnodup : m.unusedEvents.Nodup := Text.nodup_distinct _
  rw [← List.toFinset_card_of_nodup hnodup]
  congr 1
  ext name
  simp [Model.unusedEvents]

theorem length_events_eq (hnodup : m.eventNames.Nodup)
    (hsub : m.referencedEvents ⊆ m.eventNames) :
    m.events.length = m.unusedEvents.length + m.referencedEvents.toFinset.card := by
  have hfinset : m.referencedEvents.toFinset ⊆ m.eventNames.toFinset := fun name hname =>
    List.mem_toFinset.2 (hsub (List.mem_toFinset.1 hname))
  calc m.events.length = m.eventNames.length := (List.length_map _).symm
    _ = m.eventNames.toFinset.card := (List.toFinset_card_of_nodup hnodup).symm
    _ = _ := by rw [length_unusedEvents, Finset.card_sdiff_add_card_eq_card hfinset]

variable [Suggestion.Matcher] [Text.HashOrder]

/-- An event is told of as missing if a site names it and it is not declared. -/
theorem mem_missingEvents {name : String} :
    name ∈ (referencesDefects s m).missingEvents ↔
      name ∈ eventsOf (sites s.checkEmittedEvents m) ∧ name ∉ m.eventNames := by
  rw [← Defects.missingEvents_withoutSuggestions, withoutSuggestions_referencesDefects,
    missingEvents_append, missingEvents_repetitions, List.nil_append, mem_missingEvents_violations]

theorem toFinset_missingEvents_checked (h : s.checkEmittedEvents = true) :
    (referencesDefects s m).missingEvents.toFinset =
      m.referencedEvents.toFinset \ m.eventNames.toFinset := by
  ext name
  rw [List.mem_toFinset, Finset.mem_sdiff, List.mem_toFinset, List.mem_toFinset, mem_missingEvents,
    h, mem_eventsOf_sites_checked]

theorem toFinset_missingEvents_unchecked (h : s.checkEmittedEvents = false) :
    (referencesDefects s m).missingEvents.toFinset =
      (m.triggerEvents ++ m.completionEvents).toFinset \ m.eventNames.toFinset := by
  ext name
  rw [List.mem_toFinset, Finset.mem_sdiff, List.mem_toFinset, List.mem_toFinset, mem_missingEvents,
    h, mem_eventsOf_sites_unchecked]

/-- What is referenced in a valid description is declared, if all references are checked. -/
theorem referencedEvents_subset (h : s.checkEmittedEvents = true) (hm : WellFormed s m) :
    m.referencedEvents ⊆ m.eventNames := by
  intro name hname
  by_contra hundeclared
  have hmissing : name ∈ (referencesDefects s m).missingEvents := by
    rw [mem_missingEvents, h, mem_eventsOf_sites_checked]
    exact ⟨hname, hundeclared⟩
  rw [(check_eq_nil_iff_parts.1 (check_eq_nil_iff.2 hm)).2.1] at hmissing
  exact absurd hmissing List.not_mem_nil

/-- The checks find missing just the referenced events that are not declared, or, if the
events that actions raise are not checked, those that fire transitions or complete commands.
In a description that is valid with all references checked, every referenced event is
declared, and each declared event is either unused or referenced. -/
theorem missing_events_are_referenced (s : ValidationSettings) (m : Model) :
    (s.checkEmittedEvents = true → (referencesDefects s m).missingEvents.toFinset =
      m.referencedEvents.toFinset \ m.eventNames.toFinset) ∧
    (s.checkEmittedEvents = false → (referencesDefects s m).missingEvents.toFinset =
      (m.triggerEvents ++ m.completionEvents).toFinset \ m.eventNames.toFinset) ∧
    (s.checkEmittedEvents = true → (∃ m', validate s m = .ok m') →
      (∀ name ∈ m.referencedEvents, name ∈ m.eventNames) ∧
      m.events.length = m.unusedEvents.length + m.referencedEvents.toFinset.card) := by
  refine ⟨toFinset_missingEvents_checked, toFinset_missingEvents_unchecked, ?_⟩
  rintro hchecked ⟨m', hvalid⟩
  have hm : WellFormed s m := by
    by_contra hnot
    rw [(validate_of_not_wellFormed hnot).1] at hvalid
    exact nomatch hvalid
  have hsub := referencedEvents_subset hchecked hm
  exact ⟨hsub, length_events_eq hm.events hsub⟩

end Agreement

/-- A boiler with events of every use and one of none. -/
def boiler : Model :=
  (Model.new "dtmi:demo:boiler;1" "Boiler" "Heats water").addAll
    [.events [.new "warm", .new "cold", .new "full", .new "spare"],
      .commands [.withCompletionEvents (some "warm") (some "cold") (.new "heat")],
      .stateMachine (((StateMachine.new "off").withStates ["off", "on"]).withTransition
        ⟨"off", "on", .event "cold", some (.emit "warm")⟩),
      .rules [.new "level" "water > 9" (.emit "full")]]

open scoped Concrete

theorem missing_events_are_referenced_boiler :
    ValidationSettings.standard.checkEmittedEvents = true ∧
      validate .standard boiler = .ok boiler ∧
      (∀ name ∈ boiler.referencedEvents, name ∈ boiler.eventNames) ∧
      boiler.events.length =
        boiler.unusedEvents.length + boiler.referencedEvents.toFinset.card := by
  have hvalid : validate .standard boiler = .ok boiler := by decide
  exact ⟨rfl, hvalid,
    (missing_events_are_referenced .standard boiler).2.2 rfl ⟨boiler, hvalid⟩⟩

end Validation

end DeviceTwin
