import DeviceTwin.Json.Record
import DeviceTwin.Model.Machine

/-!
# The written form of state machines
-/

namespace DeviceTwin

open DeviceTwin.Json

def State.record : Record State where
  title := "struct State"
  fields :=
    [.required "name" .string, .optional "displayName" .string,
      .optional "description" .string]
  build := fun (name, displayName, description, ()) => ⟨name, displayName, description⟩
  parts s := (s.name, s.displayName, s.description, ())

namespace Trigger

def choice : Choice Trigger :=
  ⟨[("command", .text command), ("event", .text event), ("condition", .text condition)]⟩

def write : Trigger → Json
  | command name => .object [("command", .text name)]
  | event name => .object [("event", .text name)]
  | condition expression => .object [("condition", .text expression)]

def codec : Codec Trigger := ⟨choice.read, write⟩

end Trigger

def PropertyUpdate.record : Record PropertyUpdate where
  title := "struct PropertyUpdate"
  fields := [.required "property" .string, .required "value" .free]
  build := fun (property, value, ()) => ⟨property, value⟩
  parts u := (u.property, u.value, ())

def Action.record : Record Action where
  title := "struct Action"
  fields :=
    [.optional "emitEvent" .string, .optional "updateProperty" PropertyUpdate.record.codec]
  build := fun (emitEvent, updateProperty, ()) => ⟨emitEvent, updateProperty⟩
  parts a := (a.emitEvent, a.updateProperty, ())

def Transition.record : Record Transition where
  title := "struct Transition"
  fields :=
    [.required "from" .string, .required "to" .string, .required "trigger" Trigger.codec,
      .optional "action" Action.record.codec]
  build := fun (source, target, trigger, action, ()) => ⟨source, target, trigger, action⟩
  parts t := (t.source, t.target, t.trigger, t.action, ())

def StateMachine.record : Record StateMachine where
  title := "struct StateMachine"
  fields :=
    [.required "initialState" .string, .withDefault "states" [] State.record.codec.list,
      .withDefault "transitions" [] Transition.record.codec.list]
  build := fun (initialState, states, transitions, ()) => ⟨initialState, states, transitions⟩
  parts m := (m.initialState, m.states, m.transitions, ())

end DeviceTwin
