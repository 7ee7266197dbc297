import DeviceTwin.Graph.Basic

/-!
# Walking the graph from the initial state

The walk goes breadth first: it visits the nodes of a queue in turn and puts the
successors not seen before at its end. A node enters the queue once, when it is
first seen, so the walk takes no more steps than there are nodes.
`StateMachine.Reachable` is the same set by names alone.
-/

namespace DeviceTwin

/-- The least set of names that holds the initial state and, with the source of a
transition, its target. -/
inductive StateMachine.Reachable (m : StateMachine) : String → Prop where
  | initial : Reachable m m.initialState
  | step {t : Transition} : t ∈ m.transitions → Reachable m t.source → Reachable m t.target

namespace StateGraph

/-- The nodes that an edge leads to from a node, the newest edge first. -/
def successors (g : StateGraph) (node : Nat) : List Nat :=
  ((g.edges.filter fun e => e.source == node).map (·.target)).reverse

/-- The numbers of a list that are new, each once. -/
def newNodes (seen : List Nat) : List Nat → List Nat
  | [] => []
  | n :: ns => if seen.contains n then newNodes seen ns else n :: newNodes (n :: seen) ns

/-- Visits at most so many nodes of the queue. -/
def walk (g : StateGraph) : Nat → List Nat → List Nat → List Nat
  | 0, _, _ => []
  | _, _, [] => []
  | steps + 1, seen, node :: queue =>
    let found := newNodes seen (g.successors node)
    node :: walk g steps (found ++ seen) (queue ++ found)

/-- The nodes reached from the initial state, in the order of the visits. -/
def visited (g : StateGraph) : List Nat :=
  match index? g.nodes g.initial with
  | none => []
  | some start => g.walk g.nodeCount [start] [start]

def reachable (g : StateGraph) : List String :=
  g.visited.map g.nameOf

/-- The declared states that are not reached, each once. -/
def unreachable (g : StateGraph) : List String :=
  let reached := g.reachable
  Text.distinct (g.declared.filter fun name => !reached.contains name)

end StateGraph

def StateMachine.unreachableStates (m : StateMachine) : List String :=
  (StateGraph.ofMachine m).unreachable

end DeviceTwin
