import DeviceTwin.Proofs.Graph.Walk
import DeviceTwin.Text.Table
import Mathlib.Data.Finset.Card
import Mathlib.Data.List.Forall2

/-!
# The graph grows name by name

A graph can be built while a machine is read: a table keeps the number of each name, a name
without a number becomes the next node, and a transition becomes an edge between the nodes
of its ends. `Draft` is such a graph in the making, and `Draft.Holds d names ts` says that
it is the graph of the names and transitions read so far. Each step keeps this, so the whole
machine gives the same nodes and edges as `StateGraph.ofMachine`, and the table finds every
node by its name.
-/

namespace DeviceTwin

namespace StateGraph

/-! ### Numbers of names -/

section Index

variable {names : List String} {name : String}

theorem index?_of_not_mem (h : name ∉ names) : index? names name = none :=
  List.idxOf?_eq_none_iff.2 h

/-- Among different names, the number of a name is the place where it stands. -/
theorem index?_eq_some_iff (hnodup : names.Nodup) {i : ℕ} :
    index? names name = some i ↔ names[i]? = some name := by
  by_cases h : name ∈ names
  · rw [index?_of_mem h, Option.some.injEq, List.getElem?_eq_some_iff]
    constructor
    · rintro rfl
      exact ⟨List.idxOf_lt_length_iff.2 h, List.getElem_idxOf _⟩
    · rintro ⟨hi, rfl⟩
      exact hnodup.idxOf_getElem i hi
  · rw [index?_of_not_mem h]
    constructor
    · exact fun h' => nomatch h'
    · exact fun h' => absurd (List.mem_of_getElem? h') h

theorem idxOf_append_self (h : name ∉ names) :
    (names ++ [name]).idxOf name = names.length := by
  rw [List.idxOf_append_of_notMem h, List.idxOf_cons_self, Nat.add_zero]

theorem index?_append_self (h : name ∉ names) :
    index? (names ++ [name]) name = some names.length := by
  rw [index?_of_mem (List.mem_append_right _ (List.mem_singleton_self name)),
    idxOf_append_self h]

theorem index?_append_of_ne {other : String} (h : other ≠ name) :
    index? (names ++ [name]) other = index? names other := by
  by_cases hother : other ∈ names
  · rw [index?_of_mem (List.mem_append_left _ hother), index?_of_mem hother,
      List.idxOf_append_of_mem hother]
  · have hfresh : other ∉ names ++ [name] := by simp [hother, h]
    rw [index?_of_not_mem hother, index?_of_not_mem hfresh]

end Index

/-! ### A graph in the making -/

/-- Nodes and edges so far, and the numbers of the nodes by name. -/
structure Draft where
  nodes : List String
  edges : List Edge
  numbers : Text.Table ℕ

namespace Draft

def empty : Draft :=
  ⟨[], [], .empty⟩

/-- The number of a name. A name that has none becomes the next node. -/
def node (d : Draft) (name : String) : ℕ × Draft :=
  match d.numbers.get? name with
  | some number => (number, d)
  | none =>
    (d.nodes.length,
      ⟨d.nodes ++ [name], d.edges, d.numbers.insert name d.nodes.length⟩)

def addName (d : Draft) (name : String) : Draft :=
  (d.node name).2

def addTransition (d : Draft) (t : Transition) : Draft :=
  let (source, d) := d.node t.source
  let (target, d) := d.node t.target
  ⟨d.nodes, d.edges ++ [⟨source, target, t.trigger⟩], d.numbers⟩

/-- Reads the states, the initial state and the transitions. -/
def ofMachine (m : StateMachine) : Draft :=
  m.transitions.foldl addTransition ((m.stateNames.foldl addName empty).addName m.initialState)

/-- The draft is the graph of some names and transitions. -/
structure Holds (d : Draft) (names : List String) (ts : List Transition) : Prop where
  nodes : d.nodes = Text.distinct names
  numbers : ∀ name, d.numbers.get? name = index? d.nodes name
  edges : d.edges = ts.map (edgeOf d.nodes)
  occur : ∀ t ∈ ts, t.source ∈ names ∧ t.target ∈ names

namespace Holds

variable {d : Draft} {names : List String} {ts : List Transition}

theorem start : empty.Holds [] [] :=
  ⟨rfl, fun _ => rfl, rfl, fun _ h => absurd h List.not_mem_nil⟩

theorem mem_nodes (h : d.Holds names ts) {name : String} : name ∈ d.nodes ↔ name ∈ names := by
  rw [h.nodes, Text.mem_distinct]

/-- A name that is known gives its number and changes nothing. -/
theorem node_of_mem (h : d.Holds names ts) {name : String} (hname : name ∈ names) :
    d.node name = (d.nodes.idxOf name, d) := by
  rw [node, h.numbers, index?_of_mem (h.mem_nodes.2 hname)]

theorem node_of_not_mem (h : d.Holds names ts) {name : String} (hname : name ∉ names) :
    d.node name = (d.nodes.length,
      ⟨d.nodes ++ [name], d.edges, d.numbers.insert name d.nodes.length⟩) := by
  rw [node, h.numbers, index?_of_not_mem (mt h.mem_nodes.1 hname)]

/-- A name keeps its number when others are read. -/
theorem idxOf_node (h : d.Holds names ts) (name : String) {other : String}
    (hother : other ∈ names) : (d.node name).2.nodes.idxOf other = d.nodes.idxOf other := by
  by_cases hname : name ∈ names
  · rw [h.node_of_mem hname]
  · rw [h.node_of_not_mem hname]
    exact List.idxOf_append_of_mem (h.mem_nodes.2 hother)

/-- Reading a name keeps the draft, and the number given is that of the name. -/
theorem node (h : d.Holds names ts) (name : String) :
    (d.node name).2.Holds (names ++ [name]) ts ∧
      (d.node name).1 = (d.node name).2.nodes.idxOf name := by
  by_cases hname : name ∈ names
  · rw [h.node_of_mem hname]
    refine ⟨⟨?_, h.numbers, h.edges, fun t ht => ?_⟩, rfl⟩
    · rw [h.nodes, Text.distinct_append_singleton, if_pos hname]
    · exact (h.occur t ht).imp (List.mem_append_left _) (List.mem_append_left _)
  · have hfresh : name ∉ d.nodes := mt h.mem_nodes.1 hname
    rw [h.node_of_not_mem hname]
    refine ⟨⟨?_, fun other => ?_, ?_, fun t ht => ?_⟩, ?_⟩
    · rw [Text.distinct_append_singleton, if_neg hname, h.nodes]
    · by_cases hother : other = name
      · rw [hother, Text.Table.get?_insert_self, index?_append_self hfresh]
      · rw [Text.Table.get?_insert_of_ne hother, h.numbers, index?_append_of_ne hother]
    · -- The edges stay as they are, since old names keep their numbers.
      rw [h.edges]
      refine List.map_congr_left fun t ht => ?_
      obtain ⟨hsource, htarget⟩ := h.occur t ht
      rw [edgeOf, edgeOf, List.idxOf_append_of_mem (h.mem_nodes.2 hsource),
        List.idxOf_append_of_mem (h.mem_nodes.2 htarget)]
    · exact (h.occur t ht).imp (List.mem_append_left _) (List.mem_append_left _)
    · exact (idxOf_append_self hfresh).symm

theorem addNames (h : d.Holds names ts) (more : List String) :
    (more.foldl addName d).Holds (names ++ more) ts := by
  induction more generalizing d names with
  | nil => rwa [List.append_nil]
  | cons name more ih =>
      have hrest := ih (h.node name).1
      rwa [List.append_assoc, List.singleton_append] at hrest

theorem addTransition (h : d.Holds names ts) (t : Transition) :
    (d.addTransition t).Holds (names ++ [t.source, t.target]) (ts ++ [t]) := by
  obtain ⟨hsource, hnumber⟩ := h.node t.source
  obtain ⟨htarget, hnumber'⟩ := hsource.node t.target
  have hmem : t.source ∈ names ++ [t.source] :=
    List.mem_append_right _ (List.mem_singleton_self _)
  -- The number of the source was given before the target was read.
  have hkept := hsource.idxOf_node t.target hmem
  have hnames : names ++ [t.source] ++ [t.target] = names ++ [t.source, t.target] := by simp
  rw [hnames] at htarget
  have hedge : Edge.mk (d.node t.source).1 ((d.node t.source).2.node t.target).1 t.trigger =
      edgeOf ((d.node t.source).2.node t.target).2.nodes t := by
    rw [edgeOf, hkept, ← hnumber, ← hnumber']
  refine ⟨htarget.nodes, htarget.numbers, ?_, ?_⟩
  · rw [List.map_append]
    exact congrArg₂ (· ++ ·) htarget.edges (congrArg ([·]) hedge)
  · refine List.forall_mem_append.2 ⟨fun t' ht' => ?_, List.forall_mem_singleton.2 ?_⟩
    · exact (h.occur t' ht').imp (List.mem_append_left _) (List.mem_append_left _)
    · exact ⟨by simp, by simp⟩

theorem addTransitions (h : d.Holds names ts) (more : List Transition) :
    (more.foldl Draft.addTransition d).Holds
      (names ++ more.flatMap fun t => [t.source, t.target]) (ts ++ more) := by
  induction more generalizing d names ts with
  | nil => rwa [List.flatMap_nil, List.append_nil, List.append_nil]
  | cons t more ih =>
      have hrest := ih (h.addTransition t)
      rwa [List.append_assoc, List.append_assoc, List.singleton_append] at hrest

end Holds

/-- What is read of a whole machine is its graph. -/
theorem holds_ofMachine (m : StateMachine) :
    (ofMachine m).Holds m.occurringNames m.transitions := by
  have h := (((Holds.start.addNames m.stateNames).node m.initialState).1).addTransitions
    m.transitions
  rwa [List.nil_append, List.nil_append, List.append_assoc, List.singleton_append] at h

end Draft

/-! ### What the graph holds -/

section OfMachine

variable {m : StateMachine} {name : String}

theorem getElem?_nodeOf (h : name ∈ m.occurringNames) :
    (ofMachine m).nodes[nodeOf m name]? = some name :=
  (index?_eq_some_iff (nodup_nodes m)).1 (index?_of_mem (mem_nodes.2 h))

theorem edges_join (m : StateMachine) :
    List.Forall₂ (fun (e : Edge) (t : Transition) =>
      (ofMachine m).nodes[e.source]? = some t.source ∧
        (ofMachine m).nodes[e.target]? = some t.target ∧ e.trigger = t.trigger)
      (ofMachine m).edges m.transitions := by
  refine List.forall₂_map_left_iff.2 (List.forall₂_same.2 fun t ht => ?_)
  exact ⟨getElem?_nodeOf (StateMachine.source_mem_occurringNames ht),
    getElem?_nodeOf (StateMachine.target_mem_occurringNames ht), rfl⟩

theorem nodeCount_eq (m : StateMachine) :
    (ofMachine m).nodeCount = m.occurringNames.toFinset.card := by
  rw [nodeCount, ← List.toFinset_card_of_nodup (nodup_nodes m)]
  refine congrArg Finset.card (Finset.ext fun name => ?_)
  rw [List.mem_toFinset, List.mem_toFinset, mem_nodes]

theorem stateCount_eq (m : StateMachine) :
    (ofMachine m).stateCount = m.stateNames.toFinset.card := by
  rw [stateCount, ← List.toFinset_card_of_nodup ((nodup_nodes m).filter _)]
  refine congrArg Finset.card (Finset.ext fun name => ?_)
  rw [List.mem_toFinset, List.mem_toFinset, List.mem_filter, mem_nodes, isDeclared,
    List.contains_iff_mem]
  exact and_iff_right_of_imp fun h => StateMachine.mem_occurringNames.2 (.inl h)

end OfMachine

/-- The graph of a machine has one node for each name that occurs in it, in the order of
first occurrence, and one edge for each transition, between the nodes of its ends. Read name
by name with a table of numbers the machine gives the same graph, and the table holds the
nodes by their names and nothing else. -/
theorem graph_represents_machine (m : StateMachine) :
    (ofMachine m).nodes.Nodup ∧
    (∀ name, name ∈ (ofMachine m).nodes ↔ name ∈ m.stateNames ∨ name = m.initialState ∨
      ∃ t ∈ m.transitions, name = t.source ∨ name = t.target) ∧
    ((ofMachine m).nodes.Pairwise fun a b =>
      m.occurringNames.idxOf a < m.occurringNames.idxOf b) ∧
    (∀ name i, index? (ofMachine m).nodes name = some i ↔
      (ofMachine m).nodes[i]? = some name) ∧
    List.Forall₂ (fun (e : Edge) (t : Transition) =>
      (ofMachine m).nodes[e.source]? = some t.source ∧
        (ofMachine m).nodes[e.target]? = some t.target ∧ e.trigger = t.trigger)
      (ofMachine m).edges m.transitions ∧
    (ofMachine m).transitionCount = m.transitions.length ∧
    (ofMachine m).nodeCount = m.occurringNames.toFinset.card ∧
    (ofMachine m).stateCount = m.stateNames.toFinset.card ∧
    (Draft.ofMachine m).nodes = (ofMachine m).nodes ∧
    (Draft.ofMachine m).edges = (ofMachine m).edges ∧
    ∀ name i, (Draft.ofMachine m).numbers.get? name = some i ↔
      (ofMachine m).nodes[i]? = some name := by
  have hdraft := Draft.holds_ofMachine m
  have hnodes : (Draft.ofMachine m).nodes = (ofMachine m).nodes := hdraft.nodes
  have hindex : ∀ name i, index? (ofMachine m).nodes name = some i ↔
      (ofMachine m).nodes[i]? = some name := fun _ _ => index?_eq_some_iff (nodup_nodes m)
  refine ⟨nodup_nodes m, fun name => mem_nodes.trans StateMachine.mem_occurringNames,
    Text.distinct_pairwise _, hindex, edges_join m, List.length_map _, nodeCount_eq m,
    stateCount_eq m, hnodes, ?_, fun name i => ?_⟩
  · rw [hdraft.edges, hnodes]
    rfl
  · rw [hdraft.numbers, hnodes, hindex]

end StateGraph

end DeviceTwin
