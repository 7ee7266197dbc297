import DeviceTwin.Json.Record
import DeviceTwin.Model.Basic
import DeviceTwin.Text.Names

/-!
# What nothing refers to

An event is used if it fires a transition, is raised by a transition or a rule, or
completes a command. A schema is used if something else names it: a property, a
payload, or a field of a schema with another identifier. What is declared and not
used is listed in the order of declaration.
-/

namespace DeviceTwin

namespace Model

/-- The events that a transition is fired by or raises. -/
def transitionEvents (t : Transition) : List String :=
  t.trigger.eventName?.toList ++ t.emitted?.toList

def transitions (m : Model) : List Transition :=
  match m.stateMachine with
  | none => []
  | some machine => machine.transitions

/-- Every event that is referred to, once for each place. -/
def referencedEvents (m : Model) : List String :=
  m.transitions.flatMap transitionEvents ++
    m.rules.flatMap (fun r => r.action.emitEvent.toList) ++
    m.commands.flatMap Command.completionNames

def unusedEvents (m : Model) : List String :=
  let used := m.referencedEvents
  Text.distinct (m.eventNames.filter fun name => !used.contains name)

def payloads (c : Command) : List CommandPayload :=
  c.request.toList ++ c.response.toList

/-- The schemas that contents of the interface name. -/
def contentSchemas (m : Model) : List String :=
  m.properties.flatMap (fun p => p.schema.names) ++
    m.telemetry.flatMap (fun t => t.schema.names) ++
    m.commands.flatMap (fun c => (payloads c).flatMap fun p => p.schema.names) ++
    m.events.flatMap (fun e => e.schema.toList.flatMap SchemaRef.names)

/-- The schemas that a declared schema names, itself left out. -/
def otherSchemas (s : ObjectSchema) : List String :=
  s.names.filter fun name => some name != s.id

def usedSchemas (m : Model) : List String :=
  m.contentSchemas ++ m.schemas.flatMap otherSchemas

def unusedSchemas (m : Model) : List String :=
  let used := m.usedSchemas
  (m.schemas.filterMap ObjectSchema.id).filter fun id => !used.contains id

end Model

structure UnusedElements where
  events : List String
  schemas : List String
  deriving DecidableEq, Repr

namespace UnusedElements

def isEmpty (u : UnusedElements) : Bool :=
  u.events.isEmpty && u.schemas.isEmpty

open DeviceTwin.Json in
def record : Record UnusedElements where
  title := "struct UnusedElements"
  fields :=
    [.required "unused_events" Codec.string.list, .required "unused_schemas" Codec.string.list]
  build := fun (events, schemas, ()) => ⟨events, schemas⟩
  parts u := (u.events, u.schemas, ())

end UnusedElements

def Model.unused (m : Model) : UnusedElements :=
  ⟨m.unusedEvents, m.unusedSchemas⟩

end DeviceTwin
