import DeviceTwin.Model.Schema

/-!
# The contents of an interface

What a device offers: properties and telemetry to be read, commands to be called,
events to be told of, relationships to other twins. Each has a name, which other
parts of the description refer to.
-/

namespace DeviceTwin

structure Property where
  name : String
  schema : SchemaRef
  displayName : Option String
  description : Option String
  unit : Option String
  writable : Bool
  deriving DecidableEq

structure Telemetry where
  name : String
  schema : SchemaRef
  displayName : Option String
  description : Option String
  unit : Option String
  deriving DecidableEq

/-- How a command completes: while its caller waits, or later. -/
inductive ExecutionMode where
  | sync
  | async
  deriving DecidableEq, Repr

structure CommandPayload where
  name : String
  schema : SchemaRef
  deriving DecidableEq

/-- The events that a command raises when it is done. -/
structure CompletionEvents where
  onSuccess : Option String
  onFailure : Option String
  deriving DecidableEq, Repr

/-- The events named, success before failure. -/
def CompletionEvents.names (e : CompletionEvents) : List String :=
  e.onSuccess.toList ++ e.onFailure.toList

structure Command where
  name : String
  displayName : Option String
  description : Option String
  request : Option CommandPayload
  response : Option CommandPayload
  intent : Option String
  execution : Option ExecutionMode
  completionEvents : Option CompletionEvents
  deriving DecidableEq

structure Event where
  name : String
  displayName : Option String
  description : Option String
  schema : Option SchemaRef
  deriving DecidableEq

structure Relationship where
  name : String
  target : Option String
  minMultiplicity : Option UInt32
  maxMultiplicity : Option UInt32
  writable : Bool
  deriving DecidableEq

def Property.new (name schema : String) : Property :=
  ⟨name, .named schema, none, none, none, false⟩

def Telemetry.new (name schema : String) : Telemetry :=
  ⟨name, .named schema, none, none, none⟩

namespace Command

def new (name : String) : Command :=
  ⟨name, none, none, none, none, none, none, none⟩

def withCompletionEvents (onSuccess onFailure : Option String) (c : Command) : Command :=
  { c with completionEvents := some ⟨onSuccess, onFailure⟩ }

/-- The events that a command raises when it is done, success before failure. -/
def completionNames (c : Command) : List String :=
  match c.completionEvents with
  | none => []
  | some e => e.names

end Command

def Event.new (name : String) : Event :=
  ⟨name, none, none, none⟩

def Relationship.new (name target : String) : Relationship :=
  ⟨name, some target, none, none, false⟩

end DeviceTwin
