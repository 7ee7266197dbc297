import DeviceTwin.Proofs.Text.Names
import DeviceTwin.Validation.Check
import Mathlib.Data.List.GetD
import Mathlib.Data.List.Perm.Subperm
import Mathlib.Order.Bounds.Defs

/-!
# The walk finds what can be reached

`Walks g seen queue order` is a walk to its end without a bound on the steps: with
the nodes `seen` behind it and the nodes of `queue` before it, it visits `order`
and stops when the queue is empty. `StateGraph.walk` makes such a walk as soon as
its bound is no less than the nodes not yet seen and the length of the queue
together (`walks_walk`), and every step takes one off that sum.

What holds of all walks is an induction on `Walks`: no node is visited twice,
nothing is visited that does not follow from the queue, and what is visited is
closed under edges. Names come in only at the end, where the node of a name and the
name of a node are inverse to each other.
-/

namespace DeviceTwin

namespace StateGraph

variable {g : StateGraph}

/-! ### New nodes -/

theorem mem_newNodes {n : Nat} {ns : List Nat} :
    ∀ {seen : List Nat}, n ∈ newNodes seen ns ↔ n ∈ ns ∧ n ∉ seen := by
  induction ns with
  | nil => simp [newNodes]
  | cons m ns ih =>
      intro seen
      by_cases hm : m ∈ seen
      · rw [newNodes, if_pos (List.contains_iff_mem.2 hm), ih, List.mem_cons]
        constructor
        · exact fun h => ⟨.inr h.1, h.2⟩
        · rintro ⟨rfl | h, hn⟩
          · exact absurd hm hn
          · exact ⟨h, hn⟩
      · rw [newNodes, if_neg (by simpa using hm), List.mem_cons, ih, List.mem_cons,
          List.mem_cons, not_or]
        constructor
        · rintro (rfl | ⟨h, -, hn⟩)
          · exact ⟨.inl rfl, hm⟩
          · exact ⟨.inr h, hn⟩
        · rintro ⟨rfl | h, hn⟩
          · exact .inl rfl
          · by_cases hnm : n = m
            · exact .inl hnm
            · exact .inr ⟨h, hnm, hn⟩

theorem nodup_newNodes {ns : List Nat} : ∀ {seen : List Nat}, (newNodes seen ns).Nodup := by
  induction ns with
  | nil => exact List.nodup_nil
  | cons m ns ih =>
      intro seen
      by_cases hm : m ∈ seen
      · rw [newNodes, if_pos (List.contains_iff_mem.2 hm)]
        exact ih
      · rw [newNodes, if_neg (by simpa using hm), List.nodup_cons]
        exact ⟨fun h => (mem_newNodes.1 h).2 List.mem_cons_self, ih⟩

theorem nodup_newNodes_append {seen ns : List Nat} (h : seen.Nodup) :
    (newNodes seen ns ++ seen).Nodup := by
  refine List.nodup_append.2 ⟨nodup_newNodes, h, ?_⟩
  rintro a ha b hb rfl
  exact (mem_newNodes.1 ha).2 hb

/-! ### Walks -/

/-- A walk to its end. -/
inductive Walks (g : StateGraph) : List Nat → List Nat → List Nat → Prop where
  | done (seen : List Nat) : Walks g seen [] []
  | visit {seen queue order : List Nat} {node : Nat} :
      Walks g (newNodes seen (g.successors node) ++ seen)
        (queue ++ newNodes seen (g.successors node)) order →
      Walks g seen (node :: queue) (node :: order)

/-- All edges end at nodes. -/
def Closed (g : StateGraph) : Prop :=
  ∀ node, ∀ n ∈ g.successors node, n < g.nodeCount

/-- Nodes seen are nodes and are counted once. -/
structure Bounded (g : StateGraph) (seen : List Nat) : Prop where
  nodup : seen.Nodup
  bound : ∀ n ∈ seen, n < g.nodeCount

namespace Bounded

variable {seen : List Nat}

theorem length_le (h : g.Bounded seen) : seen.length ≤ g.nodeCount := by
  have hsub : seen ⊆ List.range g.nodeCount := fun n hn => List.mem_range.2 (h.bound n hn)
  have hlen := (h.nodup.subperm hsub).length_le
  rwa [List.length_range] at hlen

theorem step (hg : g.Closed) (h : g.Bounded seen) (node : Nat) :
    g.Bounded (newNodes seen (g.successors node) ++ seen) := by
  refine ⟨nodup_newNodes_append h.nodup, ?_⟩
  intro n hn
  rcases List.mem_append.1 hn with hn | hn
  · exact hg node n (mem_newNodes.1 hn).1
  · exact h.bound n hn

end Bounded

/-- Each visit takes one off the number of nodes not yet seen and the length of the
queue together, so the walk ends within its bound. -/
theorem walks_walk (hg : g.Closed) :
    ∀ (steps : Nat) {seen queue : List Nat}, g.Bounded seen →
      g.nodeCount - seen.length + queue.length ≤ steps →
      g.Walks seen queue (g.walk steps seen queue) := by
  intro steps
  induction steps with
  | zero =>
      intro seen queue _ hle
      have hnil : queue = [] := List.length_eq_zero_iff.1 (by omega)
      rw [hnil]
      exact .done seen
  | succ steps ih =>
      intro seen queue hb hle
      cases queue with
      | nil => exact .done seen
      | cons node queue =>
          have hb' := hb.step hg node
          have hcount := hb'.length_le
          refine .visit (ih hb' ?_)
          simp only [List.length_append, List.length_cons] at hcount hle ⊢
          omega

namespace Walks

variable {seen queue order : List Nat}

/-- A walk visits nothing but what follows from its queue. -/
theorem sound {P : Nat → Prop} (hP : ∀ node, P node → ∀ n ∈ g.successors node, P n)
    (h : g.Walks seen queue order) : (∀ n ∈ queue, P n) → ∀ n ∈ order, P n := by
  induction h with
  | done => exact fun _ _ hn => absurd hn List.not_mem_nil
  | @visit seen queue order node _ ih =>
      intro hq
      have hnode : P node := hq node List.mem_cons_self
      have hrest : ∀ n ∈ order, P n := by
        apply ih
        intro n hn
        rcases List.mem_append.1 hn with hn | hn
        · exact hq n (List.mem_cons_of_mem node hn)
        · exact hP node hnode n (mem_newNodes.1 hn).1
      exact List.forall_mem_cons.2 ⟨hnode, hrest⟩

theorem queue_subset (h : g.Walks seen queue order) : queue ⊆ order := by
  induction h with
  | done => exact List.Subset.refl []
  | visit _ ih =>
      exact List.cons_subset_cons _ fun n hn => ih (List.mem_append_left _ hn)

/-- Where an edge leads from a visited node was seen before or is visited. -/
theorem closed (h : g.Walks seen queue order) :
    ∀ node ∈ order, ∀ n ∈ g.successors node, n ∈ seen ∨ n ∈ order := by
  induction h with
  | done => exact fun _ hn => absurd hn List.not_mem_nil
  | @visit seen queue order node h ih =>
      -- A node found at this visit stands in the queue of the rest of the walk.
      have found : ∀ n, n ∈ newNodes seen (g.successors node) ++ seen ∨ n ∈ order →
          n ∈ seen ∨ n ∈ node :: order := by
        rintro n (hn | hn)
        · rcases List.mem_append.1 hn with hn | hn
          · have hq := h.queue_subset (List.mem_append_right queue hn)
            exact .inr (List.mem_cons_of_mem node hq)
          · exact .inl hn
        · exact .inr (List.mem_cons_of_mem node hn)
      intro m hm n hn
      apply found
      rcases List.mem_cons.1 hm with rfl | hm
      · by_cases hs : n ∈ seen
        · exact .inl (List.mem_append_right _ hs)
        · exact .inl (List.mem_append_left _ (mem_newNodes.2 ⟨hn, hs⟩))
      · exact ih m hm n hn

/-- What is visited stands in the queue or is new, so nothing is visited twice. -/
theorem visited_once (h : g.Walks seen queue order) (hsub : queue ⊆ seen)
    (hnd : queue.Nodup) : order.Nodup ∧ ∀ n ∈ order, n ∈ queue ∨ n ∉ seen := by
  induction h with
  | done => exact ⟨List.nodup_nil, fun _ hn => absurd hn List.not_mem_nil⟩
  | @visit seen queue order node _ ih =>
      have hnode : node ∈ seen := hsub List.mem_cons_self
      have hqueue : queue ⊆ seen := fun n hn => hsub (List.mem_cons_of_mem node hn)
      obtain ⟨hfresh, hnd⟩ := List.nodup_cons.1 hnd
      have hdisjoint : ∀ n ∈ queue, ∀ m ∈ newNodes seen (g.successors node), n ≠ m := by
        rintro n hn m hm rfl
        exact (mem_newNodes.1 hm).2 (hqueue hn)
      have hsub' : queue ++ newNodes seen (g.successors node) ⊆
          newNodes seen (g.successors node) ++ seen := by
        intro n hn
        rcases List.mem_append.1 hn with hn | hn
        · exact List.mem_append_right _ (hqueue hn)
        · exact List.mem_append_left _ hn
      obtain ⟨hrest, horigin⟩ :=
        ih hsub' (List.nodup_append.2 ⟨hnd, nodup_newNodes, hdisjoint⟩)
      have hnot : node ∉ order := by
        intro hn
        rcases horigin node hn with hn | hn
        · rcases List.mem_append.1 hn with hn | hn
          · exact hfresh hn
          · exact (mem_newNodes.1 hn).2 hnode
        · exact hn (List.mem_append_right _ hnode)
      refine ⟨List.nodup_cons.2 ⟨hnot, hrest⟩, ?_⟩
      intro n hn
      rcases List.mem_cons.1 hn with rfl | hn
      · exact .inl List.mem_cons_self
      · rcases horigin n hn with hn | hn
        · rcases List.mem_append.1 hn with hn | hn
          · exact .inl (List.mem_cons_of_mem node hn)
          · exact .inr (mem_newNodes.1 hn).2
        · exact .inr fun hs => hn (List.mem_append_right _ hs)

end Walks

end StateGraph

/-! ### Names and their nodes -/

namespace StateMachine

variable {m : StateMachine}

theorem initialState_mem_occurringNames : m.initialState ∈ m.occurringNames :=
  List.mem_append_right _ List.mem_cons_self

theorem endpoint_mem_occurringNames {t : Transition} (h : t ∈ m.transitions) {name : String}
    (hname : name ∈ [t.source, t.target]) : name ∈ m.occurringNames :=
  List.mem_append_right _ (List.mem_cons_of_mem _ (List.mem_flatMap.2 ⟨t, h, hname⟩))

theorem source_mem_occurringNames {t : Transition} (h : t ∈ m.transitions) :
    t.source ∈ m.occurringNames :=
  endpoint_mem_occurringNames h List.mem_cons_self

theorem target_mem_occurringNames {t : Transition} (h : t ∈ m.transitions) :
    t.target ∈ m.occurringNames :=
  endpoint_mem_occurringNames h (List.mem_cons_of_mem _ List.mem_cons_self)

theorem mem_occurringNames {name : String} :
    name ∈ m.occurringNames ↔ name ∈ m.stateNames ∨ name = m.initialState ∨
      ∃ t ∈ m.transitions, name = t.source ∨ name = t.target := by
  simp [occurringNames]

theorem Reachable.occurs {name : String} (h : m.Reachable name) : name ∈ m.occurringNames := by
  cases h with
  | initial => exact initialState_mem_occurringNames
  | step ht _ => exact target_mem_occurringNames ht

/-- A set of names that holds the initial state and is closed under transitions. -/
def IsClosed (m : StateMachine) (names : Set String) : Prop :=
  m.initialState ∈ names ∧ ∀ t ∈ m.transitions, t.source ∈ names → t.target ∈ names

theorem isLeast_reachable (m : StateMachine) :
    IsLeast {names | m.IsClosed names} {name | m.Reachable name} := by
  refine ⟨⟨Reachable.initial, fun t ht h => Reachable.step ht h⟩, ?_⟩
  intro names hclosed name h
  induction h with
  | initial => exact hclosed.1
  | step ht _ ih => exact hclosed.2 _ ht ih

end StateMachine

namespace StateGraph

theorem index?_of_mem {names : List String} {name : String} (h : name ∈ names) :
    index? names name = some (names.idxOf name) :=
  List.findIdx?_eq_some_iff_findIdx_eq.2 ⟨List.idxOf_lt_length_iff.2 h, rfl⟩

section OfMachine

variable {m : StateMachine} {name : String}

/-- The node of a name that occurs in the machine. -/
def nodeOf (m : StateMachine) (name : String) : Nat :=
  (ofMachine m).nodes.idxOf name

theorem mem_nodes : name ∈ (ofMachine m).nodes ↔ name ∈ m.occurringNames :=
  Text.mem_distinct

theorem nodup_nodes (m : StateMachine) : (ofMachine m).nodes.Nodup :=
  Text.nodup_distinct _

theorem nodeOf_lt (h : name ∈ m.occurringNames) :
    nodeOf m name < (ofMachine m).nodeCount :=
  List.idxOf_lt_length_iff.2 (mem_nodes.2 h)

theorem nameOf_nodeOf (h : name ∈ m.occurringNames) :
    (ofMachine m).nameOf (nodeOf m name) = name := by
  have hlt := nodeOf_lt h
  rw [nameOf, List.getD_eq_getElem _ _ hlt]
  exact List.getElem_idxOf hlt

theorem nodeOf_nameOf {node : Nat} (h : node < (ofMachine m).nodeCount) :
    nodeOf m ((ofMachine m).nameOf node) = node := by
  rw [nameOf, List.getD_eq_getElem _ _ h]
  exact (nodup_nodes m).idxOf_getElem node h

theorem index?_initial (m : StateMachine) :
    index? (ofMachine m).nodes (ofMachine m).initial = some (nodeOf m m.initialState) :=
  index?_of_mem (mem_nodes.2 StateMachine.initialState_mem_occurringNames)

theorem mem_successors {node n : Nat} :
    n ∈ (ofMachine m).successors node ↔
      ∃ t ∈ m.transitions, nodeOf m t.source = node ∧ nodeOf m t.target = n := by
  simp [successors, ofMachine, edgeOf, nodeOf, and_assoc]

theorem closed_ofMachine (m : StateMachine) : (ofMachine m).Closed := by
  intro node n hn
  obtain ⟨t, ht, -, rfl⟩ := mem_successors.1 hn
  exact nodeOf_lt (StateMachine.target_mem_occurringNames ht)

/-- The walk from the initial state ends by itself. -/
theorem walks_visited (m : StateMachine) :
    (ofMachine m).Walks [nodeOf m m.initialState] [nodeOf m m.initialState]
      (ofMachine m).visited := by
  have hstart : nodeOf m m.initialState < (ofMachine m).nodeCount :=
    nodeOf_lt StateMachine.initialState_mem_occurringNames
  rw [visited, index?_initial]
  refine walks_walk (closed_ofMachine m) _ ⟨List.nodup_singleton _, ?_⟩ ?_
  · intro n hn
    rwa [List.mem_singleton.1 hn]
  · simp only [List.length_singleton]
    omega

theorem nodup_visited (m : StateMachine) : (ofMachine m).visited.Nodup :=
  ((walks_visited m).visited_once (List.Subset.refl _) (List.nodup_singleton _)).1

theorem lt_nodeCount_of_mem_visited {node : Nat} (h : node ∈ (ofMachine m).visited) :
    node < (ofMachine m).nodeCount := by
  refine (walks_visited m).sound (fun node _ => closed_ofMachine m node) ?_ node h
  intro n hn
  rw [List.mem_singleton.1 hn]
  exact nodeOf_lt StateMachine.initialState_mem_occurringNames

theorem reachable_of_mem_visited {node : Nat} (h : node ∈ (ofMachine m).visited) :
    m.Reachable ((ofMachine m).nameOf node) := by
  refine (walks_visited m).sound (P := fun n => m.Reachable ((ofMachine m).nameOf n)) ?_ ?_
    node h
  · intro node hnode n hn
    obtain ⟨t, ht, rfl, rfl⟩ := mem_successors.1 hn
    rw [nameOf_nodeOf (StateMachine.source_mem_occurringNames ht)] at hnode
    rw [nameOf_nodeOf (StateMachine.target_mem_occurringNames ht)]
    exact .step ht hnode
  · intro n hn
    rw [List.mem_singleton.1 hn, nameOf_nodeOf StateMachine.initialState_mem_occurringNames]
    exact .initial

theorem initial_mem_visited (m : StateMachine) :
    nodeOf m m.initialState ∈ (ofMachine m).visited :=
  (walks_visited m).queue_subset List.mem_cons_self

theorem nodeOf_mem_visited (h : m.Reachable name) : nodeOf m name ∈ (ofMachine m).visited := by
  induction h with
  | initial => exact initial_mem_visited m
  | @step t ht _ ih =>
      have hsucc : nodeOf m t.target ∈ (ofMachine m).successors (nodeOf m t.source) :=
        mem_successors.2 ⟨t, ht, rfl, rfl⟩
      rcases (walks_visited m).closed _ ih _ hsucc with hseen | hvisited
      · rw [List.mem_singleton.1 hseen]
        exact initial_mem_visited m
      · exact hvisited

theorem mem_reachable : name ∈ (ofMachine m).reachable ↔ m.Reachable name := by
  constructor
  · intro h
    obtain ⟨node, hnode, rfl⟩ := List.mem_map.1 h
    exact reachable_of_mem_visited hnode
  · intro h
    exact List.mem_map.2 ⟨nodeOf m name, nodeOf_mem_visited h, nameOf_nodeOf h.occurs⟩

theorem nodup_reachable (m : StateMachine) : (ofMachine m).reachable.Nodup := by
  refine (nodup_visited m).map_on ?_
  intro a ha b hb hab
  rw [← nodeOf_nameOf (lt_nodeCount_of_mem_visited ha),
    ← nodeOf_nameOf (lt_nodeCount_of_mem_visited hb), hab]

end OfMachine

end StateGraph

/-! ### What is not reached -/

section Unreachable

variable {m : StateMachine} {name : String}

theorem mem_unreachableStates :
    name ∈ m.unreachableStates ↔ name ∈ m.stateNames ∧ ¬ m.Reachable name := by
  rw [← StateGraph.mem_reachable]
  simp [StateMachine.unreachableStates, StateGraph.unreachable, StateGraph.ofMachine]

theorem unreachableStates_pairwise (m : StateMachine) :
    m.unreachableStates.Pairwise fun a b =>
      m.stateNames.idxOf a < m.stateNames.idxOf b := by
  rw [StateMachine.unreachableStates, StateGraph.unreachable, Text.distinct_filter]
  exact (Text.distinct_pairwise m.stateNames).filter _

theorem unreachableStates_eq_nil_iff :
    m.unreachableStates = [] ↔ ∀ name ∈ m.stateNames, m.Reachable name := by
  simp [List.eq_nil_iff_forall_not_mem, mem_unreachableStates]

namespace Validation

theorem reachabilityDefects_of_nil (h : m.unreachableStates = []) :
    reachabilityDefects m = [] := by
  rw [reachabilityDefects, h]

theorem reachabilityDefects_of_ne_nil (h : m.unreachableStates ≠ []) :
    reachabilityDefects m = [.unreachableStates m.initialState m.unreachableStates] := by
  rw [reachabilityDefects]
  cases hs : m.unreachableStates with
  | nil => exact absurd hs h
  | cons => rfl

theorem reachabilityDefects_eq_nil_iff :
    reachabilityDefects m = [] ↔ ∀ name ∈ m.stateNames, m.Reachable name := by
  rw [← unreachableStates_eq_nil_iff]
  by_cases h : m.unreachableStates = []
  · simp [reachabilityDefects_of_nil h, h]
  · simp [reachabilityDefects_of_ne_nil h, h]

end Validation

end Unreachable

/-- The walk from the initial state ends, visits no node twice and finds the least set
of names that holds the initial state and is closed under transitions. Declared
states outside of it are told in the order of their first declarations, in one defect
if there are any. -/
theorem walk_finds_closure (m : StateMachine) :
    (∃ start, StateGraph.index? (StateGraph.ofMachine m).nodes m.initialState = some start ∧
      (StateGraph.ofMachine m).Walks [start] [start] (StateGraph.ofMachine m).visited) ∧
    (StateGraph.ofMachine m).visited.Nodup ∧
    (StateGraph.ofMachine m).reachable.Nodup ∧
    IsLeast {names | m.IsClosed names} {name | name ∈ (StateGraph.ofMachine m).reachable} ∧
    (StateGraph.ofMachine m).unreachable = m.unreachableStates ∧
    (∀ name, name ∈ m.unreachableStates ↔
      name ∈ m.stateNames ∧ name ∉ (StateGraph.ofMachine m).reachable) ∧
    (m.unreachableStates.Pairwise fun a b =>
      m.stateNames.idxOf a < m.stateNames.idxOf b) ∧
    (m.unreachableStates = [] → Validation.reachabilityDefects m = []) ∧
    (m.unreachableStates ≠ [] → Validation.reachabilityDefects m =
      [.unreachableStates m.initialState m.unreachableStates]) := by
  refine ⟨⟨_, StateGraph.index?_initial m, StateGraph.walks_visited m⟩,
    StateGraph.nodup_visited m, StateGraph.nodup_reachable m, ?_, rfl, ?_,
    unreachableStates_pairwise m, Validation.reachabilityDefects_of_nil,
    Validation.reachabilityDefects_of_ne_nil⟩
  · have hset : {name | name ∈ (StateGraph.ofMachine m).reachable} =
        {name | m.Reachable name} := Set.ext fun _ => StateGraph.mem_reachable
    rw [hset]
    exact m.isLeast_reachable
  · intro name
    rw [StateGraph.mem_reachable]
    exact mem_unreachableStates

end DeviceTwin
