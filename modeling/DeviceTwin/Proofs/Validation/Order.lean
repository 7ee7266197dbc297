import DeviceTwin.Proofs.Graph.Walk
import DeviceTwin.Proofs.Validation.Footprint
import DeviceTwin.Proofs.Validation.Steady

/-!
# Declarations in another order

A declaration counts by its name only, wherever it stands in its list: a site dangles or
not for every list of the same names. So if the declarations of a kind are put in another
order, the defects stay where they are, but for those that list the declarations
themselves. `Moves kind` tells what may become of a defect, and `Reordered kind` says so of a
whole report.

This is not so for what is suggested. A matcher that keeps something in mind may score the same
names otherwise when they are listed otherwise, and then another one is the best
(`not_every_order_suggests_alike`). The suggestions stay too if the matcher is steady.
-/

namespace DeviceTwin

/-- A defect that tells of a repeated name of a kind. -/
def Defect.repeats (kind : ElementKind) : Defect → Bool
  | .duplicateName k _ => k == kind
  | _ => false

namespace Validation

open DeviceTwin.Suggestion DeviceTwin.Text

/-! ### Reports in another order -/

/-- What may become of a defect if the declarations of a kind are put in another order. -/
inductive Moves : ElementKind → Defect → Defect → Prop where
  | same (kind : ElementKind) (d : Defect) : Moves kind d d
  | repeated (kind : ElementKind) (name name' : String) :
    Moves kind (.duplicateName kind name) (.duplicateName kind name')
  | unreached (initial : String) {states states' : List String} :
    states.Perm states' →
      Moves .state (.unreachableStates initial states) (.unreachableStates initial states')

/-- Position by position the defects are the same, but for repeated names of a kind, which
are permuted among themselves, and for the order in which unreached states are listed. -/
structure Reordered (kind : ElementKind) (ds ds' : Defects) : Prop where
  positions : List.Forall₂ (Moves kind) ds ds'
  repeated : (ds.filter (Defect.repeats kind)).Perm (ds'.filter (Defect.repeats kind))

namespace Reordered

variable {kind : ElementKind} {ds ds' es es' : Defects}

theorem refl (kind : ElementKind) (ds : Defects) : Reordered kind ds ds :=
  ⟨List.forall₂_same.2 fun d _ => .same kind d, List.Perm.refl _⟩

theorem append (h : Reordered kind ds ds') (h' : Reordered kind es es') :
    Reordered kind (ds ++ es) (ds' ++ es') := by
  refine ⟨List.rel_append h.positions h'.positions, ?_⟩
  rw [List.filter_append, List.filter_append]
  exact h.repeated.append h'.repeated

theorem withoutSuggestions (h : Reordered kind ds ds') :
    Reordered kind ds.withoutSuggestions ds'.withoutSuggestions := by
  have hrepeats : ∀ d : Defect, d.withoutSuggestion.repeats kind = d.repeats kind := by
    rintro ⟨⟩ <;> rfl
  refine ⟨?_, ?_⟩
  · rw [Defects.withoutSuggestions, Defects.withoutSuggestions, List.forall₂_map_left_iff,
      List.forall₂_map_right_iff]
    refine h.positions.imp fun d d' hmoves => ?_
    cases hmoves with
    | same => exact .same kind _
    | repeated => exact .repeated kind _ _
    | unreached initial hperm => exact .unreached initial hperm
  · have hfilter : ∀ ds : Defects, ds.withoutSuggestions.filter (Defect.repeats kind) =
        (ds.filter (Defect.repeats kind)).map Defect.withoutSuggestion := by
      intro ds
      rw [Defects.withoutSuggestions, List.filter_map]
      exact congrArg _ (List.filter_congr fun d _ => hrepeats d)
    rw [hfilter, hfilter]
    exact h.repeated.map _

theorem of_names {names names' : List String} (h : names.Perm names') :
    Reordered kind ((Text.secondOccurrences names).map (.duplicateName kind))
      ((Text.secondOccurrences names').map (.duplicateName kind)) := by
  rw [← Text.repeated_eq_secondOccurrences, ← Text.repeated_eq_secondOccurrences]
  have hperm := Text.repeated_perm h
  refine ⟨?_, (hperm.map _).filter _⟩
  rw [List.forall₂_map_left_iff, List.forall₂_map_right_iff]
  exact List.forall₂_of_length_eq_of_get hperm.length_eq fun _ _ _ => .repeated kind _ _

end Reordered

/-! ### Descriptions with the same names -/

/-- A description with the same references among the same names, some of which are listed in
another order. -/
structure SameNames (kind : ElementKind) (m m' : Model) : Prop where
  heading : m'.heading = m.heading
  declared : ∀ k name, name ∈ declaredNames m' k ↔ name ∈ declaredNames m k
  sites : ∀ checked, sites checked m' = sites checked m
  repetitions : Reordered kind (repetitions m') (repetitions m)
  states : Reordered kind (stateDefects m') (stateDefects m)

variable {m m' : Model} {machine : StateMachine}

theorem sameNames_events {events : List Event} (h : events.Perm m.events) :
    SameNames .event m { m with events := events } where
  heading := rfl
  declared kind name := by
    have hnames : (events.map Event.name).Perm m.eventNames := h.map Event.name
    cases kind with
    | event => exact hnames.mem_iff
    | _ => exact Iff.rfl
  sites _ := rfl
  repetitions := by
    have hnames : (events.map Event.name).Perm m.eventNames := h.map Event.name
    exact ((Reordered.refl _ _).append (.of_names hnames)).append (.refl _ _)
  states := .refl _ _

/-- What can be reached depends on the initial state and the transitions only. -/
theorem reachable_of_states {initial name : String} {states states' : List State}
    {transitions : List Transition}
    (h : StateMachine.Reachable ⟨initial, states, transitions⟩ name) :
    StateMachine.Reachable ⟨initial, states', transitions⟩ name := by
  induction h with
  | initial => exact .initial
  | step ht _ ih => exact .step ht ih

theorem unreachableStates_perm {states : List State} (h : states.Perm machine.states) :
    StateMachine.unreachableStates { machine with states := states } |>.Perm
      machine.unreachableStates := by
  -- Both lists are free of repetition, so it is enough that they have the same members.
  have hnodup : ∀ machine : StateMachine, machine.unreachableStates.Nodup :=
    fun machine => Text.nodup_distinct _
  have hnames : (states.map State.name).Perm machine.stateNames := h.map State.name
  refine (List.perm_ext_iff_of_nodup (hnodup _) (hnodup _)).2 fun name => ?_
  rw [mem_unreachableStates, mem_unreachableStates]
  exact and_congr hnames.mem_iff (not_congr ⟨reachable_of_states, reachable_of_states⟩)

theorem reachabilityDefects_reordered {states : List State} (h : states.Perm machine.states) :
    Reordered .state (reachabilityDefects { machine with states := states })
      (reachabilityDefects machine) := by
  have hperm := unreachableStates_perm h
  by_cases hnil : machine.unreachableStates = []
  · rw [reachabilityDefects_of_nil hnil, reachabilityDefects_of_nil (hnil ▸ hperm).eq_nil]
    exact .refl _ _
  · have hnil' : StateMachine.unreachableStates { machine with states := states } ≠ [] :=
      fun heq => hnil (heq ▸ hperm).symm.eq_nil
    rw [reachabilityDefects_of_ne_nil hnil, reachabilityDefects_of_ne_nil hnil']
    exact ⟨.cons (.unreached _ hperm) .nil, List.Perm.refl _⟩

theorem sameNames_states (hm : m.stateMachine = some machine) {states : List State}
    (h : states.Perm machine.states) :
    SameNames .state m { m with stateMachine := some { machine with states := states } } where
  heading := rfl
  declared kind name := by
    have hnames : (states.map State.name).Perm machine.stateNames := h.map State.name
    cases kind with
    | state => rw [declaredNames_state hm]; exact hnames.mem_iff
    | _ => exact Iff.rfl
  sites _ := by
    rw [sites, sites, hm]
    rfl
  repetitions := by
    have hnames : (states.map State.name).Perm machine.stateNames := h.map State.name
    rw [repetitions, repetitions, hm]
    exact (Reordered.refl _ _).append (.of_names hnames)
  states := by
    rw [stateDefects, stateDefects, hm]
    exact reachabilityDefects_reordered h

/-! ### Two reports -/

section Check

variable [Matcher]

theorem check_eq_parts [HashOrder] (s : ValidationSettings) (m : Model) :
    check s m = structureDefects s.expectedContext m ++
      (repetitions m ++ ((danglingDefects s m).run Matcher.blank).1 ++ stateDefects m) := by
  rw [check_eq_append, referencesDefects, repetitionDefects_eq]

/-- Apart from suggestions the report is reordered at most, and as it is if the matcher is
steady. -/
theorem SameNames.reordered {kind : ElementKind} (h : SameNames kind m m')
    (order order' : HashOrder) (s : ValidationSettings) :
    Reordered kind (@check _ order' s m').withoutSuggestions
        (@check _ order s m).withoutSuggestions ∧
      (Steady s m → Reordered kind (@check _ order' s m') (@check _ order s m)) := by
  have hroot := structureDefects_congr s.expectedContext h.heading
  constructor
  · have hviolations : violations m' (Validation.sites s.checkEmittedEvents m') =
        violations m (Validation.sites s.checkEmittedEvents m) := by
      rw [violations, violations, h.sites]
      exact congrArg _ (List.filter_congr fun o _ =>
        decide_eq_decide.2 (not_congr (h.declared _ _)))
    rw [@withoutSuggestions_check _ order', @withoutSuggestions_check _ order, hroot,
      hviolations]
    exact (Reordered.refl _ _).append
      ((h.repetitions.append (.refl _ _)).append h.states.withoutSuggestions)
  · intro hsteady
    rw [@check_eq_parts _ order', @check_eq_parts _ order, hroot,
      dangling_unique order order' h.sites h.declared hsteady]
    exact (Reordered.refl _ _).append ((h.repetitions.append (.refl _ _)).append h.states)

end Check

/-- In another order of the declarations, and if the hash sets give their names in another order,
the reports are the same apart from suggestions: with the events in another order, only the
defects that tell of repeated events change places among themselves; with the states of the
machine in another order, only those that tell of repeated states do, and unreached states are
listed in another order. The suggestions are the same too if the matcher is steady for the
description. -/
theorem order_moves_suggestions_only [Matcher] (order order' : HashOrder)
    (s : ValidationSettings) (m : Model) :
    (∀ events : List Event, events.Perm m.events →
      Reordered .event (@check _ order' s { m with events := events }).withoutSuggestions
          (@check _ order s m).withoutSuggestions ∧
        (Steady s m → Reordered .event (@check _ order' s { m with events := events })
          (@check _ order s m))) ∧
    (∀ (machine : StateMachine) (states : List State), m.stateMachine = some machine →
      states.Perm machine.states →
      Reordered .state
          (@check _ order' s
            { m with stateMachine := some { machine with states := states } }).withoutSuggestions
          (@check _ order s m).withoutSuggestions ∧
        (Steady s m → Reordered .state
          (@check _ order' s { m with stateMachine := some { machine with states := states } })
          (@check _ order s m))) ∧
    (@check _ order' s m).withoutSuggestions = (@check _ order s m).withoutSuggestions ∧
    (Steady s m → @check _ order' s m = @check _ order s m) := by
  refine ⟨fun _ h => (sameNames_events h).reordered order order' s,
    fun _ _ hm h => (sameNames_states hm h).reordered order order' s, ?_, fun hsteady => ?_⟩
  · rw [@withoutSuggestions_check _ order', @withoutSuggestions_check _ order]
  · rw [@check_eq_parts _ order', @check_eq_parts _ order,
      dangling_unique order order' (fun _ => rfl) (fun _ _ => Iff.rfl) hsteady]

open scoped Concrete

/-- The machine of a valve, with an undeclared initial state and a repeated one. -/
def valveMachine : StateMachine :=
  ((StateMachine.new "shu").withStates ["", "ajar", "open", "open"]).withTransition
    ⟨"ajar", "open", .event "tur", none⟩

/-- A valve with repeated events and one that is not declared. -/
def valve : Model :=
  (Model.new "dtmi:demo:valve;1" "Valve" "Lets water through").addAll
    [.events [.new "", .new "leaks", .new "drips", .new "leaks", .new "drips"],
      .stateMachine valveMachine]

/-- Hash tables give what was put in last first. -/
abbrev lastFirst : HashOrder :=
  ⟨fun _ entries => entries.reverse, fun _ entries => entries.reverse_perm⟩

/-- The only name that has a score is the empty one, which fits every name without a look at the
rows. -/
theorem steady_valve : Steady .standard valve := by
  rintro r hr - name hname _ _ ⟨memory, -, rfl⟩ ⟨memory', -, rfl⟩
  have hsites : sites true valve =
      [.reference ⟨.stateMachine, "stateMachine", .state, "shu"⟩,
        .endpoint ⟨"ajar", "open", .event "tur", none⟩ "source" "ajar",
        .endpoint ⟨"ajar", "open", .event "tur", none⟩ "target" "open",
        .reference ⟨.trigger, "ajar -> open", .event, "tur"⟩] := by
    rfl
  change _ ∈ sites true valve at hr
  simp only [hsites, List.mem_cons, Site.reference.injEq, reduceCtorEq, List.not_mem_nil, false_or,
    or_false] at hr
  rcases hr with rfl | rfl
  · change name ∈ ["", "ajar", "open", "open"] at hname
    simp only [List.mem_cons, List.not_mem_nil, or_false, or_self] at hname
    rcases hname with rfl | rfl | rfl <;> rfl
  · change name ∈ ["", "leaks", "drips", "leaks", "drips"] at hname
    simp only [List.mem_cons, List.not_mem_nil, or_false] at hname
    rcases hname with rfl | rfl | rfl | rfl | rfl <;> rfl

theorem order_moves_suggestions_only_valve :
    Steady .standard valve ∧
    (valve.events.reverse.Perm valve.events ∧
      Reordered .event (@check _ lastFirst .standard { valve with events := valve.events.reverse })
        (check .standard valve)) ∧
    valve.stateMachine = some valveMachine ∧
      valveMachine.states.reverse.Perm valveMachine.states ∧
      Reordered .state
        (@check _ lastFirst .standard { valve with
          stateMachine := some { valveMachine with states := valveMachine.states.reverse } })
        (check .standard valve) := by
  obtain ⟨hevents, hstates, -⟩ :=
    order_moves_suggestions_only Concrete.givenOrder lastFirst .standard valve
  exact ⟨steady_valve, ⟨List.reverse_perm _, (hevents _ (List.reverse_perm _)).2 steady_valve⟩,
    rfl, List.reverse_perm _, (hstates valveMachine _ rfl (List.reverse_perm _)).2 steady_valve⟩

/-- A pump whose initial state is short for two names. -/
def pumpMachine : StateMachine :=
  ((StateMachine.new "aab").withStates ["aabccc", "aabd"]).withTransition
    ⟨"aabccc", "aabd", .condition "true", none⟩

def pump : Model :=
  (Model.new "dtmi:demo:pump;1" "Pump" "Moves water").addAll [.stateMachine pumpMachine]

/-- What is suggested may change with the order of the states: a matcher that keeps its rows gives
the second of these two names the higher score if it was asked for the first one before. -/
theorem not_every_order_suggests_alike :
    ¬ ∀ (s : ValidationSettings) (m : Model) (machine : StateMachine) (states : List State),
      m.stateMachine = some machine → states.Perm machine.states →
        (check s { m with stateMachine := some { machine with states := states } }).ofKind
            .invalidReference =
          (check s m).ofKind .invalidReference := by
  intro h
  have hpump := h .standard pump pumpMachine _ rfl (List.reverse_perm _)
  have hlast : (check .standard pump).ofKind .invalidReference =
      [.invalidReference .stateMachine "stateMachine" .state "aab" (some "aabd")] := by
    decide +kernel
  have hfirst : (check .standard { pump with
        stateMachine := some { pumpMachine with states := pumpMachine.states.reverse } }).ofKind
          .invalidReference =
      [.invalidReference .stateMachine "stateMachine" .state "aab" (some "aabccc")] := by
    decide +kernel
  rw [hlast, hfirst] at hpump
  exact absurd hpump (by decide)

end Validation

end DeviceTwin
