import DeviceTwin.Model.Machine
import DeviceTwin.Text.Names

/-!
# The graph of a state machine

Every name that occurs in a machine is a node, declared or not, in the order of
its first occurrence: states, initial state, ends of transitions. Edges are the
transitions in their order and join nodes by number; several edges may join the
same two nodes.
-/

namespace DeviceTwin

structure StateGraph.Edge where
  source : Nat
  target : Nat
  trigger : Trigger
  deriving DecidableEq, Repr

structure StateGraph where
  nodes : List String
  edges : List StateGraph.Edge
  declared : List String
  initial : String
  deriving DecidableEq, Repr

namespace StateMachine

/-- All names that occur in a machine, with repetitions. -/
def occurringNames (m : StateMachine) : List String :=
  m.stateNames ++ m.initialState :: m.transitions.flatMap fun t => [t.source, t.target]

end StateMachine

namespace StateGraph

/-- The number of the node that carries a name. -/
def index? (nodes : List String) (name : String) : Option Nat :=
  nodes.idxOf? name

def edgeOf (nodes : List String) (t : Transition) : Edge :=
  ⟨nodes.idxOf t.source, nodes.idxOf t.target, t.trigger⟩

def ofMachine (m : StateMachine) : StateGraph :=
  let nodes := Text.distinct m.occurringNames
  ⟨nodes, m.transitions.map (edgeOf nodes), m.stateNames, m.initialState⟩

def isDeclared (g : StateGraph) (name : String) : Bool :=
  g.declared.contains name

/-- The number of nodes that are declared states. -/
def stateCount (g : StateGraph) : Nat :=
  (g.nodes.filter g.isDeclared).length

def nodeCount (g : StateGraph) : Nat := g.nodes.length

def transitionCount (g : StateGraph) : Nat := g.edges.length

/-- The name that a node carries. -/
def nameOf (g : StateGraph) (node : Nat) : String :=
  g.nodes.getD node ""

end StateGraph

end DeviceTwin
