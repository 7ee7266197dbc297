import DeviceTwin.Model.Behavior
import DeviceTwin.Model.Contents

/-!
# Descriptions of devices

`Model` is the whole description of one device. It is built up from the empty
interface by parts: a part of a list goes to the end of its list, and a machine or
physics takes the place of the one before.
-/

namespace DeviceTwin

structure Model where
  context : String
  id : String
  kind : String
  displayName : String
  description : String
  versionInfo : Option String
  schemas : List ObjectSchema
  properties : List Property
  telemetry : List Telemetry
  commands : List Command
  events : List Event
  relationships : List Relationship
  stateMachine : Option StateMachine
  physics : Option Physics
  rules : List Rule
  goals : List Goal
  aiModels : List AiModel
  deriving DecidableEq

namespace Model

/-- The one context that descriptions are written in, unless a setting names
another. -/
def standardContext : String := "dtmi:htc:context;1"

/-- The kind of every description. -/
def interfaceKind : String := "Interface"

def new (id displayName description : String) : Model where
  context := standardContext
  id := id
  kind := interfaceKind
  displayName := displayName
  description := description
  versionInfo := none
  schemas := []
  properties := []
  telemetry := []
  commands := []
  events := []
  relationships := []
  stateMachine := none
  physics := none
  rules := []
  goals := []
  aiModels := []

/-- Something that a description is given. -/
inductive Part where
  | properties (ps : List Property)
  | telemetry (ts : List Telemetry)
  | commands (cs : List Command)
  | events (es : List Event)
  | schemas (ss : List ObjectSchema)
  | relationships (rs : List Relationship)
  | stateMachine (m : StateMachine)
  | physics (p : Physics)
  | rules (rs : List Rule)
  | goals (gs : List Goal)
  | aiModels (ms : List AiModel)

def add (m : Model) : Part → Model
  | .properties ps => { m with properties := m.properties ++ ps }
  | .telemetry ts => { m with telemetry := m.telemetry ++ ts }
  | .commands cs => { m with commands := m.commands ++ cs }
  | .events es => { m with events := m.events ++ es }
  | .schemas ss => { m with schemas := m.schemas ++ ss }
  | .relationships rs => { m with relationships := m.relationships ++ rs }
  | .stateMachine s => { m with stateMachine := some s }
  | .physics p => { m with physics := some p }
  | .rules rs => { m with rules := m.rules ++ rs }
  | .goals gs => { m with goals := m.goals ++ gs }
  | .aiModels ms => { m with aiModels := m.aiModels ++ ms }

def addAll (m : Model) (parts : List Part) : Model :=
  parts.foldl add m

def commandNames (m : Model) : List String :=
  m.commands.map Command.name

def eventNames (m : Model) : List String :=
  m.events.map Event.name

end Model

end DeviceTwin
