import DeviceTwin.Proofs.Graph.Growth
import DeviceTwin.Proofs.Validation.Check

/-!
# The graph of a valid machine is closed

A node of the graph is a declared state or a name at a site that refers to a state, and
`filter_sites_state` lists these sites: the initial state and both ends of each transition.
So the graph has more nodes than states if and only if one of these sites dangles, and then
the check tells of it. In a valid description none does, and as nothing is unreachable
there, the nodes are the declared states and all of them are reached.
-/

namespace DeviceTwin

/-- A defect that tells of an undeclared state, at an end of a transition or where a state
is referred to. -/
def Defect.tellsOfState : Defect → Bool
  | .invalidStateTransition .. => true
  | .invalidReference _ _ targetKind _ _ => targetKind == .state
  | _ => false

namespace Validation

open DeviceTwin.Suggestion DeviceTwin.Text

/-! ### Sites that name a state -/

/-- The sites of a machine that name a state. -/
def stateSites (machine : StateMachine) : List Site :=
  .reference ⟨.stateMachine, "stateMachine", .state, machine.initialState⟩ ::
    machine.transitions.flatMap fun t =>
      [.endpoint t "source" t.source, .endpoint t "target" t.target]

section Sites

variable {m : Model} {machine : StateMachine} {checked : Bool}

/-- Sites of other kinds are left out. -/
theorem filter_eq_nil {os : List Site} (h : ∀ o ∈ os, o.kind ≠ .state) :
    os.filter (·.kind = .state) = [] :=
  List.filter_eq_nil_iff.2 fun o ho => by simpa using h o ho

theorem filter_transitionSites (t : Transition) :
    (transitionSites checked t).filter (·.kind = .state) =
      [.endpoint t "source" t.source, .endpoint t "target" t.target] := by
  have htrigger : (triggerSites t).filter (·.kind = .state) = [] :=
    filter_eq_nil fun o ho => by
      rcases kind_of_mem_triggerSites ho with h | h <;> rw [h] <;> decide
  have hemitted :
      (emittedSites checked .action (transitionLabel t) t.emitted?).filter (·.kind = .state) =
        [] :=
    filter_eq_nil fun o ho => by
      rw [kind_of_mem_emittedSites ho]
      decide
  rw [transitionSites, List.filter_append, List.filter_append, htrigger, hemitted,
    List.append_nil, List.append_nil]
  rfl

theorem filter_machineSites (machine : StateMachine) :
    (machineSites checked machine).filter (·.kind = .state) = stateSites machine := by
  rw [machineSites, List.filter_append, List.filter_flatMap]
  simp only [filter_transitionSites]
  rfl

theorem filter_sites_state (hm : m.stateMachine = some machine) :
    (sites checked m).filter (·.kind = .state) = stateSites machine := by
  have hcommands : (m.commands.flatMap commandSites).filter (·.kind = .state) = [] :=
    filter_eq_nil fun o ho => by
      obtain ⟨c, -, hc⟩ := List.mem_flatMap.1 ho
      rw [kind_of_mem_commandSites hc]
      decide
  have hrules : (m.rules.flatMap (ruleSites checked)).filter (·.kind = .state) = [] :=
    filter_eq_nil fun o ho => by
      obtain ⟨r, -, hr⟩ := List.mem_flatMap.1 ho
      rw [kind_of_mem_emittedSites hr]
      decide
  rw [sites, hm, List.filter_append, List.filter_append, hcommands, hrules, List.append_nil,
    List.append_nil]
  exact filter_machineSites machine

theorem occurringNames_eq (machine : StateMachine) :
    machine.occurringNames = machine.stateNames ++ (stateSites machine).map Site.name := by
  rw [stateSites, List.map_cons, List.map_flatMap]
  rfl

end Sites

/-! ### What the check tells of undeclared states -/

section Findings

variable {s : ValidationSettings} {m : Model} {machine : StateMachine}

theorem tellsOfState_withoutSuggestion (d : Defect) :
    d.withoutSuggestion.tellsOfState = d.tellsOfState := by
  cases d <;> rfl

theorem tellsOfState_violation (o : Site) :
    o.violation.tellsOfState = decide (o.kind = .state) := by
  cases o with
  | reference r => exact Bool.beq_eq_decide_eq _ _
  | endpoint => rfl

theorem repetitions_tellsOfState (m : Model) : ∀ d ∈ repetitions m, d.tellsOfState = false :=
  forall_mem_repetitions fun _ _ => rfl

theorem exists_tellsOfState_iff [Matcher] [HashOrder] (hm : m.stateMachine = some machine) :
    (∃ d ∈ referencesDefects s m, d.tellsOfState) ↔
      ∃ o ∈ stateSites machine, o.name ∉ machine.stateNames := by
  have hsites : stateSites machine =
      (sites s.checkEmittedEvents m).filter (·.kind = .state) := (filter_sites_state hm).symm
  have hbare : (∃ d ∈ referencesDefects s m, d.tellsOfState) ↔
      ∃ d ∈ (referencesDefects s m).withoutSuggestions, d.tellsOfState := by
    simp only [Defects.withoutSuggestions, List.mem_map, exists_exists_and_eq_and,
      tellsOfState_withoutSuggestion]
  have hdangling : ∀ {o : Site}, o.kind = .state → (o.Dangling m ↔ o.name ∉ machine.stateNames) :=
    fun hkind => by rw [Site.Dangling, hkind, declaredNames_state hm]
  rw [hbare, withoutSuggestions_referencesDefects, hsites]
  simp only [List.mem_append, List.mem_filter, decide_eq_true_eq]
  constructor
  · rintro ⟨d, hd | hd, htells⟩
    · exact absurd htells (Bool.eq_false_iff.1 (repetitions_tellsOfState m d hd))
    · obtain ⟨o, ho, rfl⟩ := List.mem_map.1 hd
      rw [tellsOfState_violation, decide_eq_true_eq] at htells
      obtain ⟨ho, hfresh⟩ := List.mem_filter.1 ho
      exact ⟨o, ⟨ho, htells⟩, (hdangling htells).1 (of_decide_eq_true hfresh)⟩
  · rintro ⟨o, ⟨ho, hkind⟩, hfresh⟩
    refine ⟨o.violation, .inr (List.mem_map_of_mem (List.mem_filter.2 ⟨ho, ?_⟩)), ?_⟩
    · exact decide_eq_true ((hdangling hkind).2 hfresh)
    · rw [tellsOfState_violation, decide_eq_true_eq, hkind]

end Findings

/-! ### Nodes that are no states -/

section Counts

variable {machine : StateMachine}

theorem toFinset_stateNames_subset (machine : StateMachine) :
    machine.stateNames.toFinset ⊆ machine.occurringNames.toFinset := by
  intro name hname
  rw [List.mem_toFinset] at hname ⊢
  exact StateMachine.mem_occurringNames.2 (.inl hname)

theorem stateCount_lt_nodeCount_iff :
    (StateGraph.ofMachine machine).stateCount < (StateGraph.ofMachine machine).nodeCount ↔
      ∃ o ∈ stateSites machine, o.name ∉ machine.stateNames := by
  rw [StateGraph.stateCount_eq, StateGraph.nodeCount_eq]
  constructor
  · -- One of the names that occur is not declared, so it stands at a site.
    intro hlt
    obtain ⟨name, hname, hfresh⟩ := Finset.exists_mem_notMem_of_card_lt_card hlt
    rw [List.mem_toFinset] at hname hfresh
    rw [occurringNames_eq, List.mem_append] at hname
    obtain ⟨o, ho, rfl⟩ := List.mem_map.1 (hname.resolve_left hfresh)
    exact ⟨o, ho, hfresh⟩
  · rintro ⟨o, ho, hfresh⟩
    refine Finset.card_lt_card ⟨toFinset_stateNames_subset machine, fun hsub => hfresh ?_⟩
    have hoccurs : o.name ∈ machine.occurringNames := by
      rw [occurringNames_eq]
      exact List.mem_append_right _ (List.mem_map_of_mem ho)
    exact List.mem_toFinset.1 (hsub (List.mem_toFinset.2 hoccurs))

end Counts

section Valid

variable {s : ValidationSettings} {m : Model} {machine : StateMachine}

/-- In a well-formed machine every name that occurs is a declared state. -/
theorem mem_occurringNames_iff (h : WellFormedMachine s m machine) {name : String} :
    name ∈ machine.occurringNames ↔ name ∈ machine.stateNames := by
  rw [StateMachine.mem_occurringNames]
  refine ⟨?_, .inl⟩
  rintro (hname | rfl | ⟨t, ht, rfl | rfl⟩)
  · exact hname
  · exact h.initial
  · exact (h.transitions t ht).source
  · exact (h.transitions t ht).target

theorem counts_of_wellFormed (h : WellFormedMachine s m machine) :
    (StateGraph.ofMachine machine).nodeCount = machine.states.length ∧
      (StateGraph.ofMachine machine).stateCount = machine.states.length := by
  have hlength : machine.stateNames.toFinset.card = machine.states.length :=
    (List.toFinset_card_of_nodup h.states).trans (List.length_map _)
  have hnames : machine.occurringNames.toFinset = machine.stateNames.toFinset := by
    ext name
    rw [List.mem_toFinset, List.mem_toFinset, mem_occurringNames_iff h]
  rw [StateGraph.nodeCount_eq, StateGraph.stateCount_eq, hnames]
  exact ⟨hlength, hlength⟩

theorem mem_reachable_of_wellFormed (h : WellFormedMachine s m machine) {name : String} :
    name ∈ (StateGraph.ofMachine machine).reachable ↔ name ∈ machine.stateNames := by
  rw [StateGraph.mem_reachable]
  exact ⟨fun hname => (mem_occurringNames_iff h).1 hname.occurs, h.reachable name⟩

/-- The graph of the machine of a valid description has just the declared states as nodes,
and all of them are reached. Of any description, the graph has a node that is no state if and
only if the check tells of an undeclared state. -/
theorem valid_graph_is_closed [Matcher] [HashOrder] (hm : m.stateMachine = some machine) :
    ((∃ m', validate s m = .ok m') →
      (StateGraph.ofMachine machine).nodeCount = machine.states.length ∧
      (StateGraph.ofMachine machine).stateCount = machine.states.length ∧
      (∀ name, name ∈ (StateGraph.ofMachine machine).reachable ↔ name ∈ machine.stateNames) ∧
      (StateGraph.ofMachine machine).unreachable = []) ∧
    ((StateGraph.ofMachine machine).stateCount < (StateGraph.ofMachine machine).nodeCount ↔
      ∃ d ∈ referencesDefects s m, d.tellsOfState) := by
  refine ⟨?_, stateCount_lt_nodeCount_iff.trans (exists_tellsOfState_iff hm).symm⟩
  rintro ⟨m', hvalid⟩
  have hmachine := (wellFormed_of_validate hvalid).machine machine hm
  obtain ⟨hnodes, hstates⟩ := counts_of_wellFormed hmachine
  exact ⟨hnodes, hstates, fun _ => mem_reachable_of_wellFormed hmachine,
    unreachableStates_eq_nil_iff.2 hmachine.reachable⟩

end Valid

/-- The machine of a gate that opens, shuts and is locked for the night. -/
def gateMachine : StateMachine :=
  ((StateMachine.new "shut").withStates ["open", "shut", "locked"]
    |>.withTransition ⟨"shut", "open", .condition "pushed", none⟩
    |>.withTransition ⟨"open", "shut", .condition "let go", none⟩
    |>.withTransition ⟨"shut", "locked", .condition "night", none⟩)

def gate : Model :=
  (Model.new "dtmi:demo:gate;1" "Gate" "Lets people through").addAll [.stateMachine gateMachine]

open scoped Concrete

theorem valid_graph_is_closed_gate :
    gate.stateMachine = some gateMachine ∧ validate .standard gate = .ok gate ∧
      (StateGraph.ofMachine gateMachine).nodeCount = 3 ∧
      (StateGraph.ofMachine gateMachine).stateCount = 3 ∧
      (StateGraph.ofMachine gateMachine).unreachable = [] := by
  have hvalid : validate .standard gate = .ok gate := by decide
  obtain ⟨hnodes, hstates, -, hunreachable⟩ :=
    (valid_graph_is_closed (s := .standard) (m := gate) rfl).1 ⟨gate, hvalid⟩
  exact ⟨rfl, hvalid, hnodes, hstates, hunreachable⟩

end Validation

end DeviceTwin
