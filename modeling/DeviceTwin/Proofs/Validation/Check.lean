import DeviceTwin.Proofs.Dtmi.Check
import DeviceTwin.Proofs.Graph.Walk
import DeviceTwin.Proofs.Validation.References
import DeviceTwin.Suggestion.Score

/-!
# What a valid description is

`WellFormed s m` says what is asked of a description in its own terms: the root, the
names of each list, what is referred to, and the states that can be reached. Nothing in
it runs a check. Each check has a lemma that tells when it finds nothing, and validation
succeeds exactly on the well-formed descriptions.
-/

namespace DeviceTwin.Validation

open DeviceTwin.Suggestion DeviceTwin.Text

/-- What is asked of one transition. -/
structure WellFormedTransition (s : ValidationSettings) (m : Model) (states : List String)
    (t : Transition) : Prop where
  source : t.source ∈ states
  target : t.target ∈ states
  command : ∀ name, t.trigger = .command name → name ∈ m.commandNames
  event : ∀ name, t.trigger = .event name → name ∈ m.eventNames
  emitted : s.checkEmittedEvents = true → ∀ action, t.action = some action → ∀ name,
    action.emitEvent = some name → name ∈ m.eventNames

/-- What is asked of the state machine of a description. -/
structure WellFormedMachine (s : ValidationSettings) (m : Model) (machine : StateMachine) :
    Prop where
  states : machine.stateNames.Nodup
  initial : machine.initialState ∈ machine.stateNames
  transitions : ∀ t ∈ machine.transitions, WellFormedTransition s m machine.stateNames t
  reachable : ∀ name ∈ machine.stateNames, machine.Reachable name

/-- What is asked of a description. -/
structure WellFormed (s : ValidationSettings) (m : Model) : Prop where
  context : m.context = s.expectedContext
  id : Dtmi.IsDtmi m.id.toList
  kind : m.kind = "Interface"
  displayName : m.displayName ≠ ""
  description : m.description ≠ ""
  properties : (m.properties.map Property.name).Nodup
  telemetry : (m.telemetry.map Telemetry.name).Nodup
  commands : m.commandNames.Nodup
  events : m.eventNames.Nodup
  completions : ∀ c ∈ m.commands, ∀ e, c.completionEvents = some e → ∀ name,
    e.onSuccess = some name ∨ e.onFailure = some name → name ∈ m.eventNames
  emitted : s.checkEmittedEvents = true → ∀ r ∈ m.rules, ∀ name,
    r.action.emitEvent = some name → name ∈ m.eventNames
  machine : ∀ machine, m.stateMachine = some machine → WellFormedMachine s m machine

section Root

variable {m : Model}

theorem contextDefects_eq_nil_iff {expected : String} :
    contextDefects expected m = [] ↔ m.context = expected := by
  by_cases h : m.context = expected <;> simp [contextDefects, h]

theorem idDefects_eq_nil_iff : idDefects m = [] ↔ Dtmi.IsDtmi m.id.toList := by
  rw [idDefects, ← Dtmi.problem?_eq_none_iff]
  cases Dtmi.problem? m.id.toList <;> simp

theorem emptyDefects_eq_nil_iff {field text : String} :
    emptyDefects field text = [] ↔ text ≠ "" := by
  by_cases h : text = "" <;> simp [emptyDefects, h]

theorem kindDefects_eq_nil_iff : kindDefects m = [] ↔ m.kind = "Interface" := by
  by_cases h : m.kind = Model.interfaceKind
  · simp only [kindDefects, if_pos h, true_iff]
    exact h
  · simp only [kindDefects, if_neg h, List.cons_ne_nil, false_iff]
    exact h

theorem structureDefects_eq_nil_iff {expected : String} :
    structureDefects expected m = [] ↔
      m.context = expected ∧ Dtmi.IsDtmi m.id.toList ∧ m.displayName ≠ "" ∧
        m.description ≠ "" ∧ m.kind = "Interface" := by
  simp only [structureDefects, List.append_eq_nil_iff, contextDefects_eq_nil_iff,
    idDefects_eq_nil_iff, emptyDefects_eq_nil_iff, kindDefects_eq_nil_iff, and_assoc]

end Root

/-! ### Sites of which none dangles -/

section Sites

variable {m : Model} {checked : Bool}

theorem not_dangling_reference {r : Reference} :
    ¬ (Site.reference r).Dangling m ↔ r.targetName ∈ declaredNames m r.targetKind :=
  not_not

theorem triggerSites_declared {t : Transition} :
    (∀ o ∈ triggerSites t, ¬ o.Dangling m) ↔
      (∀ name, t.trigger = .command name → name ∈ m.commandNames) ∧
        ∀ name, t.trigger = .event name → name ∈ m.eventNames := by
  rw [triggerSites]
  cases t.trigger <;> simp [not_dangling_reference, declaredNames]

theorem emittedSites_declared {kind : ElementKind} {source : String}
    {emitted : Option String} :
    (∀ o ∈ emittedSites checked kind source emitted, ¬ o.Dangling m) ↔
      (checked = true → ∀ name, emitted = some name → name ∈ m.eventNames) := by
  cases emitted with
  | none => simp [emittedSites]
  | some event => cases checked <;> simp [emittedSites, not_dangling_reference, declaredNames]

theorem ruleSites_declared {r : Rule} :
    (∀ o ∈ ruleSites checked r, ¬ o.Dangling m) ↔
      (checked = true → ∀ name, r.action.emitEvent = some name → name ∈ m.eventNames) :=
  emittedSites_declared

theorem commandSites_declared {c : Command} :
    (∀ o ∈ commandSites c, ¬ o.Dangling m) ↔
      ∀ e, c.completionEvents = some e → ∀ name,
        e.onSuccess = some name ∨ e.onFailure = some name → name ∈ m.eventNames := by
  have hnames : (∀ o ∈ commandSites c, ¬ o.Dangling m) ↔
      ∀ name ∈ c.completionNames, name ∈ m.eventNames := by
    simp only [commandSites, List.forall_mem_map, not_dangling_reference]
    exact Iff.rfl
  rw [hnames, Command.completionNames]
  cases c.completionEvents with
  | none => simp
  | some e => simp [CompletionEvents.names]

theorem emitted_iff {t : Transition} {P : String → Prop} :
    (∀ name, t.emitted? = some name → P name) ↔
      ∀ action, t.action = some action → ∀ name, action.emitEvent = some name → P name := by
  rw [Transition.emitted?]
  cases t.action <;> simp

theorem transitionSites_declared {s : ValidationSettings} {machine : StateMachine}
    (hm : m.stateMachine = some machine) {t : Transition} :
    (∀ o ∈ transitionSites s.checkEmittedEvents t, ¬ o.Dangling m) ↔
      WellFormedTransition s m machine.stateNames t := by
  have hend : ∀ role name, ¬ (Site.endpoint t role name).Dangling m ↔
      name ∈ machine.stateNames := by
    intro role name
    rw [Site.Dangling, not_not, Site.kind, declaredNames_state hm]
    exact Iff.rfl
  rw [transitionSites, List.forall_mem_append, List.forall_mem_append, List.forall_mem_cons,
    List.forall_mem_singleton, hend, hend, triggerSites_declared, emittedSites_declared,
    emitted_iff]
  constructor
  · rintro ⟨⟨⟨hsource, htarget⟩, hcommand, hevent⟩, hemitted⟩
    exact ⟨hsource, htarget, hcommand, hevent, hemitted⟩
  · intro h
    exact ⟨⟨⟨h.source, h.target⟩, h.command, h.event⟩, h.emitted⟩

theorem machineSites_declared {s : ValidationSettings} {machine : StateMachine}
    (hm : m.stateMachine = some machine) :
    (∀ o ∈ machineSites s.checkEmittedEvents machine, ¬ o.Dangling m) ↔
      machine.initialState ∈ machine.stateNames ∧
        ∀ t ∈ machine.transitions, WellFormedTransition s m machine.stateNames t := by
  rw [machineSites, List.forall_mem_append, List.forall_mem_singleton,
    not_dangling_reference, declaredNames_state hm, List.forall_mem_flatMap]
  exact and_congr_right fun _ => forall₂_congr fun _ _ => transitionSites_declared hm

end Sites

section Check

variable {s : ValidationSettings} {m : Model}

theorem duplicates_eq_nil_iff {kind : ElementKind} {names : List String} :
    (Text.secondOccurrences names).map (Defect.duplicateName kind) = [] ↔ names.Nodup := by
  rw [List.map_eq_nil_iff, ← Text.repeated_eq_secondOccurrences, Text.repeated_eq_nil_iff]

theorem repetitions_eq_nil_iff :
    repetitions m = [] ↔
      (m.properties.map Property.name).Nodup ∧ (m.telemetry.map Telemetry.name).Nodup ∧
        m.commandNames.Nodup ∧ m.eventNames.Nodup ∧
        ∀ machine, m.stateMachine = some machine → machine.stateNames.Nodup := by
  rw [repetitions]
  cases m.stateMachine <;>
    simp only [List.append_eq_nil_iff, duplicates_eq_nil_iff, and_assoc, reduceCtorEq,
      false_imp_iff, implies_true, Option.some.injEq, forall_eq']

theorem sites_declared {checked : Bool} :
    (∀ o ∈ sites checked m, ¬ o.Dangling m) ↔
      (∀ machine, m.stateMachine = some machine →
        ∀ o ∈ machineSites checked machine, ¬ o.Dangling m) ∧
      (∀ c ∈ m.commands, ∀ o ∈ commandSites c, ¬ o.Dangling m) ∧
      ∀ r ∈ m.rules, ∀ o ∈ ruleSites checked r, ¬ o.Dangling m := by
  rw [sites, List.forall_mem_append, List.forall_mem_append, List.forall_mem_flatMap,
    List.forall_mem_flatMap, and_assoc]
  refine and_congr_left' ?_
  cases m.stateMachine <;> simp

variable [Matcher] [HashOrder]

theorem referencesDefects_eq_nil_iff :
    referencesDefects s m = [] ↔
      repetitions m = [] ∧ ∀ o ∈ sites s.checkEmittedEvents m, ¬ o.Dangling m := by
  have hmap : referencesDefects s m = [] ↔ (referencesDefects s m).withoutSuggestions = [] :=
    List.map_eq_nil_iff.symm
  rw [hmap, withoutSuggestions_referencesDefects, List.append_eq_nil_iff,
    violations_eq_nil_iff]

theorem check_eq_nil_iff_parts :
    check s m = [] ↔
      structureDefects s.expectedContext m = [] ∧ referencesDefects s m = [] ∧
        ∀ machine, m.stateMachine = some machine → reachabilityDefects machine = [] := by
  rw [check]
  cases m.stateMachine <;> simp [List.append_eq_nil_iff]

theorem check_eq_nil_iff : check s m = [] ↔ WellFormed s m := by
  rw [check_eq_nil_iff_parts, structureDefects_eq_nil_iff, referencesDefects_eq_nil_iff,
    repetitions_eq_nil_iff, sites_declared]
  constructor
  · rintro ⟨⟨hcontext, hid, hname, hdescription, hkind⟩,
      ⟨⟨hproperties, htelemetry, hcommands, hevents, hstates⟩, hmachine, hcompletions,
        hemitted⟩, hreach⟩
    refine ⟨hcontext, hid, hkind, hname, hdescription, hproperties, htelemetry, hcommands,
      hevents, fun c hc => commandSites_declared.1 (hcompletions c hc),
      fun hchecked r hr => ruleSites_declared.1 (hemitted r hr) hchecked, ?_⟩
    intro machine hm
    obtain ⟨hinitial, htransitions⟩ := (machineSites_declared hm).1 (hmachine machine hm)
    exact ⟨hstates machine hm, hinitial, htransitions,
      reachabilityDefects_eq_nil_iff.1 (hreach machine hm)⟩
  · intro h
    refine ⟨⟨h.context, h.id, h.displayName, h.description, h.kind⟩,
      ⟨⟨h.properties, h.telemetry, h.commands, h.events, fun machine hm =>
        (h.machine machine hm).states⟩, ?_,
        fun c hc => commandSites_declared.2 (h.completions c hc),
        fun r hr => ruleSites_declared.2 fun hchecked => h.emitted hchecked r hr⟩,
      fun machine hm => reachabilityDefects_eq_nil_iff.2 (h.machine machine hm).reachable⟩
    intro machine hm
    have hmachine := h.machine machine hm
    exact (machineSites_declared hm).2 ⟨hmachine.initial, hmachine.transitions⟩

theorem validate_of_wellFormed (h : WellFormed s m) : validate s m = .ok m := by
  simp [validate, check_eq_nil_iff.2 h]

theorem validate_of_not_wellFormed (h : ¬ WellFormed s m) :
    validate s m = .error (check s m) ∧ check s m ≠ [] := by
  have hne : check s m ≠ [] := mt check_eq_nil_iff.1 h
  refine ⟨?_, hne⟩
  simp [validate, hne]

theorem wellFormed_of_validate {m' : Model} (h : validate s m = .ok m') : WellFormed s m := by
  by_contra hnot
  rw [(validate_of_not_wellFormed hnot).1] at h
  exact nomatch h

end Check

/-- Validation hands a well-formed description on as it is, so that doing it again
changes nothing, and answers any other description with defects, of which there is at
least one. -/
theorem validate_decides_wellFormed [Matcher] [HashOrder] (s : ValidationSettings) (m : Model) :
    (∀ m', validate s m = .ok m' ↔ WellFormed s m ∧ m' = m) ∧
    (validate s m >>= validate s) = validate s m ∧
    (¬ WellFormed s m → ∃ defects, defects ≠ [] ∧ validate s m = .error defects) := by
  by_cases h : WellFormed s m
  · have hok := validate_of_wellFormed h
    refine ⟨fun m' => ?_, ?_, fun hn => absurd h hn⟩
    · rw [hok, Except.ok.injEq, and_iff_right h, eq_comm]
    · rw [hok]
      exact hok
  · obtain ⟨herror, hne⟩ := validate_of_not_wellFormed h
    refine ⟨fun m' => ?_, ?_, fun _ => ⟨check s m, hne, herror⟩⟩
    · rw [herror]
      simp [h]
    · rw [herror]
      rfl

open scoped Concrete

example : validate .standard (.new "dtmi:lamp;1" "Lamp" "A lamp") =
    .ok (.new "dtmi:lamp;1" "Lamp" "A lamp") := by decide

end DeviceTwin.Validation
