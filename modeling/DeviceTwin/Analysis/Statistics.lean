import DeviceTwin.Json.Record
import DeviceTwin.Model.Basic

/-!
# Numbers of elements
-/

namespace DeviceTwin

structure Statistics where
  properties : Nat
  telemetry : Nat
  commands : Nat
  events : Nat
  relationships : Nat
  states : Nat
  transitions : Nat
  rules : Nat
  goals : Nat
  aiModels : Nat
  hasStateMachine : Bool
  hasPhysics : Bool
  deriving DecidableEq, Repr

namespace Statistics

/-- The number of all elements counted. -/
def total (s : Statistics) : Nat :=
  s.properties + s.telemetry + s.commands + s.events + s.relationships + s.states +
    s.transitions + s.rules + s.goals + s.aiModels

open DeviceTwin.Json in
def record : Record Statistics where
  title := "struct ModelStatistics"
  fields :=
    [.required "properties" .size, .required "telemetry" .size, .required "commands" .size,
      .required "events" .size, .required "relationships" .size, .required "states" .size,
      .required "transitions" .size, .required "rules" .size, .required "goals" .size,
      .required "ai_models" .size, .required "has_state_machine" .boolean,
      .required "has_physics" .boolean]
  build := fun (properties, telemetry, commands, events, relationships, states, transitions,
      rules, goals, aiModels, hasStateMachine, hasPhysics, ()) =>
    ⟨properties, telemetry, commands, events, relationships, states, transitions, rules, goals,
      aiModels, hasStateMachine, hasPhysics⟩
  parts s :=
    (s.properties, s.telemetry, s.commands, s.events, s.relationships, s.states, s.transitions,
      s.rules, s.goals, s.aiModels, s.hasStateMachine, s.hasPhysics, ())

end Statistics

def Model.statistics (m : Model) : Statistics where
  properties := m.properties.length
  telemetry := m.telemetry.length
  commands := m.commands.length
  events := m.events.length
  relationships := m.relationships.length
  states := (m.stateMachine.map fun s => s.states.length).getD 0
  transitions := (m.stateMachine.map fun s => s.transitions.length).getD 0
  rules := m.rules.length
  goals := m.goals.length
  aiModels := m.aiModels.length
  hasStateMachine := m.stateMachine.isSome
  hasPhysics := m.physics.isSome

end DeviceTwin
