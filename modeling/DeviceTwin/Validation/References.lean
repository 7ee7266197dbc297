import DeviceTwin.Defect.Basic
import DeviceTwin.Settings.Basic
import DeviceTwin.Suggestion.Best
import DeviceTwin.Text.Table

/-!
# Checks of names and references

Names within one list have to differ, and every reference has to name something
declared. Each place that refers to a name is looked at for itself and in the
order of the description, so a name that is missing at several places is told of
at each of them. One matcher is asked for all suggestions of a check, so what it keeps
in mind goes along from place to place (`Search`).
-/

namespace DeviceTwin.Validation

open DeviceTwin.Suggestion DeviceTwin.Text

/-- One defect for each name that occurs more than once. -/
def duplicateNames (kind : ElementKind) (names : List String) : Defects :=
  (Text.repeated names).map (.duplicateName kind)

/-- A reference to a name: who refers and to what. -/
structure Reference where
  sourceKind : ElementKind
  sourceName : String
  targetKind : ElementKind
  targetName : String
  deriving DecidableEq, Repr

/-- One end of a transition. -/
def endpointDefects (states : List String) (t : Transition) (role name : String) : Defects :=
  if states.contains name then []
  else
    [.invalidStateTransition t.source t.target
      ("unknown " ++ role ++ " state '" ++ name ++ "'")]

/-- What a transition is called in messages. -/
def transitionLabel (t : Transition) : String :=
  t.source ++ " -> " ++ t.target

/-- The repeated names of each list. -/
def repetitionDefects (m : Model) : Defects :=
  duplicateNames .property (m.properties.map Property.name) ++
    duplicateNames .telemetry (m.telemetry.map Telemetry.name) ++
    duplicateNames .command m.commandNames ++ duplicateNames .event m.eventNames ++
    match m.stateMachine with
    | none => []
    | some machine => duplicateNames .state machine.stateNames

section Search

variable [Matcher]

/-- Defects that are found one after the other, a matcher being asked for suggestions. -/
abbrev Search := Asking Defects

/-- What is found of each of several things. -/
def searchEach {α : Type} (search : α → Search) (as : List α) : Search :=
  List.flatten <$> as.mapM search

/-- A suggestion for an undeclared name, if suggestions are wanted. -/
def suggestion (s : ValidationSettings) (wanted : String) (declared : List String) :
    Asking (Option String) :=
  if s.suggestNames then best? wanted declared else return none

/-- A reference whose target has to be among the declared names. -/
def referenceDefects (s : ValidationSettings) (declared : List String) (r : Reference) :
    Search := do
  if declared.contains r.targetName then return []
  let proposed ← suggestion s r.targetName declared
  return [.invalidReference r.sourceKind r.sourceName r.targetKind r.targetName proposed]

def initialDefects (s : ValidationSettings) (machine : StateMachine) : Search :=
  referenceDefects s machine.stateNames
    ⟨.stateMachine, "stateMachine", .state, machine.initialState⟩

variable [HashOrder]

/-- The names of commands, as they come out of a hash set. -/
def commandSet (m : Model) : List String :=
  hashedNames ["commands"] m.commandNames

/-- The names of events, as they come out of a hash set. -/
def eventSet (m : Model) : List String :=
  hashedNames ["events"] m.eventNames

def triggerDefects (s : ValidationSettings) (m : Model) (t : Transition) : Search :=
  match t.trigger with
  | .command name =>
    referenceDefects s (commandSet m) ⟨.trigger, transitionLabel t, .command, name⟩
  | .event name => referenceDefects s (eventSet m) ⟨.trigger, transitionLabel t, .event, name⟩
  | .condition _ => return []

/-- The event that an action raises, if such events are checked. -/
def emittedDefects (s : ValidationSettings) (m : Model) (kind : ElementKind) (name : String)
    (emitted : Option String) : Search :=
  match emitted with
  | none => return []
  | some event =>
    if s.checkEmittedEvents then referenceDefects s (eventSet m) ⟨kind, name, .event, event⟩
    else return []

def transitionDefects (s : ValidationSettings) (m : Model) (states : List String)
    (t : Transition) : Search := do
  let ends := endpointDefects states t "source" t.source ++
    endpointDefects states t "target" t.target
  let trigger ← triggerDefects s m t
  let emitted ← emittedDefects s m .action (transitionLabel t) t.emitted?
  return ends ++ trigger ++ emitted

def machineDefects (s : ValidationSettings) (m : Model) (machine : StateMachine) :
    Search := do
  let initial ← initialDefects s machine
  let transitions ← searchEach (transitionDefects s m machine.stateNames) machine.transitions
  return initial ++ transitions

def commandDefects (s : ValidationSettings) (m : Model) (c : Command) : Search :=
  searchEach
    (fun event => referenceDefects s (eventSet m) ⟨.command, c.name, .event, event⟩)
    c.completionNames

def ruleDefects (s : ValidationSettings) (m : Model) (r : Rule) : Search :=
  emittedDefects s m .rule r.name r.action.emitEvent

/-- What is found of all references. -/
def danglingDefects (s : ValidationSettings) (m : Model) : Search := do
  let machine ←
    match m.stateMachine with
    | none => pure []
    | some machine => machineDefects s m machine
  let commands ← searchEach (commandDefects s m) m.commands
  let rules ← searchEach (ruleDefects s m) m.rules
  return machine ++ commands ++ rules

/-- A new matcher is taken for each check. -/
def referencesDefects (s : ValidationSettings) (m : Model) : Defects :=
  repetitionDefects m ++ ((danglingDefects s m).run Matcher.blank).1

end Search

end DeviceTwin.Validation
