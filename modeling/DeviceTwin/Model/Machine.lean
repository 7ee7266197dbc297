import DeviceTwin.Json.Value

/-!
# State machines

A machine lists its states and transitions and names the state it starts in. A
transition is fired by exactly one trigger, and a transition or a rule may raise
an event and set a property. Nothing here says that the names fit together; that
is what validation finds out.
-/

namespace DeviceTwin

structure State where
  name : String
  displayName : Option String
  description : Option String
  deriving DecidableEq, Repr

def State.new (name : String) : State :=
  ⟨name, none, none⟩

inductive Trigger where
  | command (name : String)
  | event (name : String)
  | condition (expression : String)
  deriving DecidableEq, Repr

namespace Trigger

/-- The event that fires a transition, if an event does. -/
def eventName? : Trigger → Option String
  | event name => some name
  | _ => none

def label : Trigger → String
  | command name => "command:" ++ name
  | event name => "event:" ++ name
  | condition expression => "when " ++ expression

end Trigger

structure PropertyUpdate where
  property : String
  value : FreeValue
  deriving DecidableEq

/-- What happens besides: an event is raised, a property is set. -/
structure Action where
  emitEvent : Option String
  updateProperty : Option PropertyUpdate
  deriving DecidableEq

namespace Action

def nothing : Action := ⟨none, none⟩

def emit (event : String) : Action := ⟨some event, none⟩

def update (property : String) (value : FreeValue) : Action := ⟨none, some ⟨property, value⟩⟩

end Action

structure Transition where
  source : String
  target : String
  trigger : Trigger
  action : Option Action
  deriving DecidableEq

namespace Transition

/-- The event that a transition raises. -/
def emitted? (t : Transition) : Option String :=
  t.action.bind Action.emitEvent

end Transition

structure StateMachine where
  initialState : String
  states : List State
  transitions : List Transition
  deriving DecidableEq

namespace StateMachine

def new (initialState : String) : StateMachine :=
  ⟨initialState, [], []⟩

def withStates (names : List String) (m : StateMachine) : StateMachine :=
  { m with states := m.states ++ names.map State.new }

def withTransition (t : Transition) (m : StateMachine) : StateMachine :=
  { m with transitions := m.transitions ++ [t] }

def stateNames (m : StateMachine) : List String :=
  m.states.map State.name

def hasState (m : StateMachine) (name : String) : Bool :=
  m.states.any fun s => s.name == name

end StateMachine

end DeviceTwin
