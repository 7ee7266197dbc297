import DeviceTwin.Graph.Walk
import DeviceTwin.Validation.References
import DeviceTwin.Validation.Structure

/-!
# Validation

A description is checked at its root, in its references and, if it has a state
machine, for states that cannot be reached. The three lists are appended; a
description is valid if all are empty, and then it is handed on as it is.
-/

namespace DeviceTwin.Validation

def reachabilityDefects (machine : StateMachine) : Defects :=
  match machine.unreachableStates with
  | [] => []
  | states => [.unreachableStates machine.initialState states]

section Check

variable [Suggestion.Matcher] [Text.HashOrder]

def check (s : ValidationSettings) (m : Model) : Defects :=
  structureDefects s.expectedContext m ++ referencesDefects s m ++
    match m.stateMachine with
    | none => []
    | some machine => reachabilityDefects machine

/-- The description itself, or every defect found. -/
def validate (s : ValidationSettings) (m : Model) : Except Defects Model :=
  let defects := check s m
  if defects.isEmpty then .ok m else .error defects

end Check

end DeviceTwin.Validation
