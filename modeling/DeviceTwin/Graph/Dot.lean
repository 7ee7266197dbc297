import DeviceTwin.Graph.Walk

/-!
# Graphs as DOT text

A graph is written in the DOT language, one line for each node and one for each
edge. Names stand between double quotes; quote and backslash are marked by a
backslash, so a name cannot end its quotes. The initial state has a double outline
and a name that is no declared state a dashed one.
-/

namespace DeviceTwin.StateGraph

def dotChar (c : Char) : List Char :=
  if c = '"' ∨ c = '\\' then ['\\', c] else [c]

/-- A text between double quotes. -/
def dotQuoted (s : String) : List Char :=
  '"' :: s.toList.flatMap dotChar ++ ['"']

def dotHead : List String :=
  ["digraph StateMachine \x7b", "  rankdir=LR;",
    "  node [shape=box, style=rounded, fontname=\"Helvetica\", fontsize=10];",
    "  edge [fontname=\"Helvetica\", fontsize=8];", ""]

def dotNode (g : StateGraph) (name : String) : List Char :=
  [' ', ' '] ++ dotQuoted name ++ " [label=".toList ++ dotQuoted name ++
    (if name = g.initial then ", peripheries=2".toList else []) ++
    (if g.isDeclared name then [] else ", style=dashed".toList) ++ [']', ';', '\n']

def dotEdge (g : StateGraph) (e : Edge) : List Char :=
  [' ', ' '] ++ dotQuoted (g.nameOf e.source) ++ " -> ".toList ++
    dotQuoted (g.nameOf e.target) ++ " [label=".toList ++ dotQuoted e.trigger.label ++
    [']', ';', '\n']

def dotText (g : StateGraph) : List Char :=
  dotHead.flatMap (fun line => line.toList ++ ['\n']) ++ g.nodes.flatMap g.dotNode ++
    '\n' :: g.edges.flatMap g.dotEdge ++ ['\x7d', '\n']

def toDot (g : StateGraph) : String :=
  String.ofList g.dotText

end DeviceTwin.StateGraph
