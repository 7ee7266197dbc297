import DeviceTwin.Proofs.Suggestion.Matcher
import DeviceTwin.Proofs.Text.Table
import DeviceTwin.Validation.References
import Mathlib.Data.List.Forall2

/-!
# The defects of names and references

A `Site` is one place of a description where a name is written that has to be
declared. `sites` lists all of them in the order of the description, and a site
dangles if its name is not declared. What the check finds is then said without
running it: the repeated names, each at its second occurrence, and behind them what
each dangling site is told as, without the name that is suggested for it (`violations`)
or with one that the matcher came upon out of some memory (`Site.Tells`). Only the
matcher knows of other sites, so nothing is lost, merged or told twice. Each part of
the check keeps to its sites (`Covers`), and so do its parts together.
-/

namespace DeviceTwin.Validation

open DeviceTwin.Suggestion DeviceTwin.Text

/-- A place where a name is written that has to be declared: a reference, or one end of
a transition and the part it plays there. -/
inductive Site where
  | reference (r : Reference)
  | endpoint (t : Transition) (role name : String)

/-- The names declared in a description, by the kind of what they name. -/
def declaredNames (m : Model) : ElementKind → List String
  | .command => m.commandNames
  | .event => m.eventNames
  | .state =>
    match m.stateMachine with
    | none => []
    | some machine => machine.stateNames
  | _ => []

namespace Site

def kind : Site → ElementKind
  | reference r => r.targetKind
  | endpoint _ _ _ => .state

def name : Site → String
  | reference r => r.targetName
  | endpoint _ _ name => name

def Dangling (m : Model) (o : Site) : Prop :=
  o.name ∉ declaredNames m o.kind

instance (m : Model) (o : Site) : Decidable (o.Dangling m) :=
  inferInstanceAs (Decidable (¬ o.name ∈ declaredNames m o.kind))

/-- What a dangling site is told as. -/
def violation : Site → Defect
  | reference r => .invalidReference r.sourceKind r.sourceName r.targetKind r.targetName none
  | endpoint t role name =>
    .invalidStateTransition t.source t.target
      ("unknown " ++ role ++ " state '" ++ name ++ "'")

def isReference : Site → Bool
  | reference _ => true
  | endpoint _ _ _ => false

end Site

/-! ### The sites of a description -/

def triggerSites (t : Transition) : List Site :=
  match t.trigger with
  | .command name => [.reference ⟨.trigger, transitionLabel t, .command, name⟩]
  | .event name => [.reference ⟨.trigger, transitionLabel t, .event, name⟩]
  | .condition _ => []

/-- The event that an action raises is a site only if such events are checked. -/
def emittedSites (checked : Bool) (kind : ElementKind) (name : String) :
    Option String → List Site
  | none => []
  | some event => if checked then [.reference ⟨kind, name, .event, event⟩] else []

def transitionSites (checked : Bool) (t : Transition) : List Site :=
  [.endpoint t "source" t.source, .endpoint t "target" t.target] ++ triggerSites t ++
    emittedSites checked .action (transitionLabel t) t.emitted?

def machineSites (checked : Bool) (machine : StateMachine) : List Site :=
  [.reference ⟨.stateMachine, "stateMachine", .state, machine.initialState⟩] ++
    machine.transitions.flatMap (transitionSites checked)

def commandSites (c : Command) : List Site :=
  c.completionNames.map fun event => .reference ⟨.command, c.name, .event, event⟩

def ruleSites (checked : Bool) (r : Rule) : List Site :=
  emittedSites checked .rule r.name r.action.emitEvent

/-- Every site of a description, in its order. -/
def sites (checked : Bool) (m : Model) : List Site :=
  (match m.stateMachine with
  | none => []
  | some machine => machineSites checked machine) ++
    m.commands.flatMap commandSites ++ m.rules.flatMap (ruleSites checked)

section Kinds

variable {o : Site} {checked : Bool}

theorem kind_of_mem_triggerSites {t : Transition} (h : o ∈ triggerSites t) :
    o.kind = .command ∨ o.kind = .event := by
  rw [triggerSites] at h
  cases ht : t.trigger with
  | command name =>
      rw [ht] at h
      exact .inl (List.mem_singleton.1 h ▸ rfl)
  | event name =>
      rw [ht] at h
      exact .inr (List.mem_singleton.1 h ▸ rfl)
  | condition _ =>
      rw [ht] at h
      exact absurd h List.not_mem_nil

theorem kind_of_mem_emittedSites {kind : ElementKind} {name : String} {emitted : Option String}
    (h : o ∈ emittedSites checked kind name emitted) : o.kind = .event := by
  cases emitted with
  | none => exact absurd h List.not_mem_nil
  | some event =>
      cases checked with
      | false => exact absurd h List.not_mem_nil
      | true => exact List.mem_singleton.1 h ▸ rfl

theorem kind_of_mem_commandSites {c : Command} (h : o ∈ commandSites c) : o.kind = .event := by
  obtain ⟨event, -, rfl⟩ := List.mem_map.1 h
  rfl

end Kinds

/-- The names that are declared more than once within one list. -/
def repetitions (m : Model) : Defects :=
  (Text.secondOccurrences (m.properties.map Property.name)).map (.duplicateName .property) ++
    (Text.secondOccurrences (m.telemetry.map Telemetry.name)).map (.duplicateName .telemetry) ++
    (Text.secondOccurrences m.commandNames).map (.duplicateName .command) ++
    (Text.secondOccurrences m.eventNames).map (.duplicateName .event) ++
    match m.stateMachine with
    | none => []
    | some machine =>
      (Text.secondOccurrences machine.stateNames).map (.duplicateName .state)

/-- What holds of every defect that tells of a repeated name holds of all repetitions. -/
theorem forall_mem_repetitions {m : Model} {P : Defect → Prop}
    (h : ∀ kind name, P (.duplicateName kind name)) : ∀ d ∈ repetitions m, P d := by
  have hmap : ∀ kind (names : List String), ∀ d ∈ names.map (.duplicateName kind), P d :=
    fun kind names => List.forall_mem_map.2 fun name _ => h kind name
  simp only [repetitions, List.forall_mem_append]
  refine ⟨⟨⟨⟨hmap _ _, hmap _ _⟩, hmap _ _⟩, hmap _ _⟩, ?_⟩
  cases m.stateMachine with
  | none => exact fun _ hd => absurd hd List.not_mem_nil
  | some machine => exact hmap _ _

def violations (m : Model) (os : List Site) : Defects :=
  (os.filter fun o => o.Dangling m).map Site.violation

theorem violations_eq_nil_iff {m : Model} {os : List Site} :
    violations m os = [] ↔ ∀ o ∈ os, ¬ o.Dangling m := by
  rw [violations, List.map_eq_nil_iff, List.filter_eq_nil_iff]
  simp only [decide_eq_true_eq]

/-! ### What is found at the sites -/

section Names

variable {n : String} {m : Model} {machine : StateMachine}

theorem declaredNames_state (hm : m.stateMachine = some machine) :
    declaredNames m .state = machine.stateNames := by
  rw [declaredNames, hm]

theorem repetitionDefects_eq (m : Model) : repetitionDefects m = repetitions m := by
  have hnames : ∀ kind names, duplicateNames kind names =
      (secondOccurrences names).map (.duplicateName kind) := fun kind names => by
    rw [duplicateNames, repeated_eq_secondOccurrences]
  rw [repetitionDefects, repetitions]
  cases m.stateMachine <;> simp only [hnames]

variable [HashOrder]

/-- The names declared in a description, by the kind of what they name, as they are gone
through. -/
def listedNames (m : Model) : ElementKind → List String
  | .command => commandSet m
  | .event => eventSet m
  | kind => declaredNames m kind

theorem mem_listedNames {kind : ElementKind} :
    n ∈ listedNames m kind ↔ n ∈ declaredNames m kind := by
  cases kind with
  | command | event => exact mem_hashedNames
  | _ => exact Iff.rfl

end Names

section Search

theorem stays_suggestion [Matcher] (s : ValidationSettings) (wanted : String)
    (declared : List String) : Stays (suggestion s wanted declared) := by
  rw [suggestion]
  split_ifs
  · exact stays_best? wanted declared
  · exact .pure none

variable [Matcher] [HashOrder] {s : ValidationSettings} {m : Model} {machine : StateMachine}

/-- What a site may be told as: an end of a transition as it is, and a reference with what the
matcher suggests out of a memory that it may have come to. -/
def Site.Tells (s : ValidationSettings) (m : Model) : Site → Defect → Prop
  | reference r, d => ∃ memory, Matcher.Reached memory ∧
      d = .invalidReference r.sourceKind r.sourceName r.targetKind r.targetName
        ((suggestion s r.targetName (listedNames m r.targetKind)).run memory).1
  | endpoint t role name, d => d = (endpoint t role name).violation

/-- A search finds what the dangling ones of some sites are told as, in their order. -/
def Covers (s : ValidationSettings) (m : Model) (search : Search) (os : List Site) : Prop :=
  ∀ memory, Matcher.Reached memory → Matcher.Reached (search.run memory).2 ∧
    List.Forall₂ (Site.Tells s m) (os.filter fun o => o.Dangling m) (search.run memory).1

namespace Covers

variable {x y : Search} {os os' : List Site}

theorem nil : Covers s m (pure []) [] :=
  fun _ h => ⟨h, .nil⟩

theorem append (hx : Covers s m x os) (hy : Covers s m y os') :
    Covers s m (do return (← x) ++ (← y)) (os ++ os') := by
  intro memory h
  obtain ⟨hreached, hfirst⟩ := hx memory h
  obtain ⟨hreached', hsecond⟩ := hy _ hreached
  refine ⟨hreached', ?_⟩
  rw [List.filter_append]
  exact List.rel_append hfirst hsecond

theorem each {α : Type} {search : α → Search} {sitesOf : α → List Site}
    (h : ∀ a, Covers s m (search a) (sitesOf a)) (as : List α) :
    Covers s m (searchEach search as) (as.flatMap sitesOf) := by
  induction as with
  | nil => exact nil
  | cons a as ih =>
      have hcons : searchEach search (a :: as) =
          (do return (← search a) ++ (← searchEach search as)) := by
        simp only [searchEach, List.mapM_cons, map_eq_pure_bind, bind_assoc, pure_bind,
          List.flatten_cons]
      rw [hcons, List.flatMap_cons]
      exact (h a).append ih

end Covers

theorem covers_reference (r : Reference) :
    Covers s m (referenceDefects s (listedNames m r.targetKind) r) [.reference r] := by
  intro memory h
  have hdangling : (Site.reference r).Dangling m ↔ r.targetName ∉ listedNames m r.targetKind :=
    not_congr mem_listedNames.symm
  by_cases hr : r.targetName ∈ listedNames m r.targetKind
  · rw [referenceDefects, if_pos (List.contains_iff_mem.2 hr),
      List.filter_cons_of_neg (by simpa [hdangling] using hr)]
    exact ⟨h, .nil⟩
  · rw [referenceDefects, if_neg (mt List.contains_iff_mem.1 hr),
      List.filter_cons_of_pos (by simpa [hdangling] using hr)]
    exact ⟨stays_suggestion s _ _ memory h, .cons ⟨memory, h, rfl⟩ .nil⟩

theorem covers_endpoint (hm : m.stateMachine = some machine) (t : Transition)
    (role name : String) :
    Covers s m (pure (endpointDefects machine.stateNames t role name))
      [.endpoint t role name] := by
  intro memory h
  have hdangling : (Site.endpoint t role name).Dangling m ↔ name ∉ machine.stateNames := by
    rw [← declaredNames_state hm]
    exact Iff.rfl
  refine ⟨h, ?_⟩
  by_cases hname : name ∈ machine.stateNames
  · rw [endpointDefects, if_pos (List.contains_iff_mem.2 hname),
      List.filter_cons_of_neg (by simpa [hdangling] using hname)]
    exact .nil
  · rw [endpointDefects, if_neg (mt List.contains_iff_mem.1 hname),
      List.filter_cons_of_pos (by simpa [hdangling] using hname)]
    exact .cons rfl .nil

theorem covers_trigger (t : Transition) : Covers s m (triggerDefects s m t) (triggerSites t) := by
  rw [triggerDefects, triggerSites]
  cases t.trigger with
  | command name => exact covers_reference ⟨_, _, .command, name⟩
  | event name => exact covers_reference ⟨_, _, .event, name⟩
  | condition _ => exact .nil

theorem covers_emitted (kind : ElementKind) (name : String) (emitted : Option String) :
    Covers s m (emittedDefects s m kind name emitted)
      (emittedSites s.checkEmittedEvents kind name emitted) := by
  cases emitted with
  | none => exact .nil
  | some event =>
      rw [emittedDefects, emittedSites]
      by_cases h : s.checkEmittedEvents
      · rw [if_pos h, if_pos h]
        exact covers_reference ⟨kind, name, .event, event⟩
      · rw [if_neg h, if_neg h]
        exact .nil

theorem covers_transition (hm : m.stateMachine = some machine) (t : Transition) :
    Covers s m (transitionDefects s m machine.stateNames t)
      (transitionSites s.checkEmittedEvents t) :=
  (((covers_endpoint hm t _ _).append (covers_endpoint hm t _ _)).append
    (covers_trigger t)).append (covers_emitted _ _ _)

theorem covers_machine (hm : m.stateMachine = some machine) :
    Covers s m (machineDefects s m machine) (machineSites s.checkEmittedEvents machine) := by
  have hinitial : Covers s m (initialDefects s machine)
      [.reference ⟨.stateMachine, "stateMachine", .state, machine.initialState⟩] := by
    rw [initialDefects, ← declaredNames_state hm]
    exact covers_reference ⟨_, _, .state, _⟩
  exact hinitial.append (.each (covers_transition hm) _)

theorem covers_command (c : Command) : Covers s m (commandDefects s m c) (commandSites c) := by
  rw [commandSites, List.map_eq_flatMap]
  exact .each (fun event => covers_reference ⟨.command, c.name, .event, event⟩) _

/-- The check finds what the dangling sites are told as. -/
theorem covers_sites (s : ValidationSettings) (m : Model) :
    Covers s m (danglingDefects s m) (sites s.checkEmittedEvents m) := by
  have hrest : ∀ {x : Search} {os : List Site}, Covers s m x os →
      Covers s m (do
          return (← x) ++ (← searchEach (commandDefects s m) m.commands) ++
            (← searchEach (ruleDefects s m) m.rules))
        (os ++ m.commands.flatMap commandSites ++
          m.rules.flatMap (ruleSites s.checkEmittedEvents)) :=
    fun h => (h.append (.each covers_command _)).append (.each (fun _ => covers_emitted _ _ _) _)
  rw [danglingDefects, sites]
  cases hm : m.stateMachine with
  | none => exact hrest .nil
  | some machine => exact hrest (covers_machine hm)

/-- What is found is the repeated names, and then what each dangling site is told as. -/
theorem exists_referencesDefects_eq (s : ValidationSettings) (m : Model) :
    ∃ ds, referencesDefects s m = repetitions m ++ ds ∧
      List.Forall₂ (Site.Tells s m)
        ((sites s.checkEmittedEvents m).filter fun o => o.Dangling m) ds :=
  ⟨_, by rw [referencesDefects, repetitionDefects_eq], (covers_sites s m _ .blank).2⟩

end Search

/-! ### The same without suggestions -/

section Checks

variable {s : ValidationSettings} {m : Model}

theorem withoutSuggestions_append (ds ds' : Defects) :
    (ds ++ ds').withoutSuggestions = ds.withoutSuggestions ++ ds'.withoutSuggestions :=
  List.map_append

theorem withoutSuggestions_repetitions (m : Model) :
    (repetitions m).withoutSuggestions = repetitions m := by
  have h : ∀ d ∈ repetitions m, d.withoutSuggestion = d := forall_mem_repetitions fun _ _ => rfl
  exact (List.map_congr_left h).trans (List.map_id' _)

theorem length_ofKind_withoutSuggestions (kind : DefectKind) (ds : Defects) :
    (ds.withoutSuggestions.ofKind kind).length = (ds.ofKind kind).length := by
  rw [Defects.ofKind, Defects.withoutSuggestions, List.filter_map, List.length_map]
  simp only [Function.comp_def, Defect.kind_withoutSuggestion]
  rfl

theorem ofKind_append (kind : DefectKind) (ds ds' : Defects) :
    Defects.ofKind kind (ds ++ ds') = ds.ofKind kind ++ ds'.ofKind kind :=
  List.filter_append ..

theorem ofKind_repetitions (m : Model) :
    (repetitions m).ofKind .invalidReference = [] :=
  List.filter_eq_nil_iff.2 (forall_mem_repetitions fun _ _ => Bool.false_ne_true)

theorem violation_kind (o : Site) :
    (o.violation.kind == .invalidReference) = o.isReference := by
  cases o <;> rfl

theorem length_ofKind_violations (os : List Site) :
    ((violations m os).ofKind .invalidReference).length =
      (os.filter fun o => o.isReference && o.Dangling m).length := by
  rw [Defects.ofKind, violations, List.filter_map, List.length_map, List.filter_filter]
  simp only [Function.comp_def, violation_kind]

variable [Matcher] [HashOrder]

theorem Site.Tells.withoutSuggestion {o : Site} {d : Defect} (h : o.Tells s m d) :
    d.withoutSuggestion = o.violation := by
  cases o with
  | reference r =>
      obtain ⟨_, _, rfl⟩ := h
      rfl
  | endpoint =>
      obtain rfl := h
      rfl

theorem withoutSuggestions_of_tells {os : List Site} {ds : Defects}
    (h : List.Forall₂ (Site.Tells s m) os ds) :
    ds.withoutSuggestions = os.map Site.violation := by
  induction h with
  | nil => rfl
  | cons hfirst _ ih =>
      rw [List.map_cons, ← ih, ← hfirst.withoutSuggestion]
      rfl

theorem withoutSuggestions_referencesDefects (s : ValidationSettings) (m : Model) :
    (referencesDefects s m).withoutSuggestions =
      repetitions m ++ violations m (sites s.checkEmittedEvents m) := by
  obtain ⟨ds, heq, htells⟩ := exists_referencesDefects_eq s m
  rw [heq, withoutSuggestions_append, withoutSuggestions_repetitions,
    withoutSuggestions_of_tells htells, violations]

end Checks

/-- Without suggestions, what is found is the repeated names, and then exactly what each
dangling site is told as, in the order of the sites; so the number of invalid references
is the number of references that dangle, however many of them share a name. -/
theorem referencesDefects_exact [Matcher] [HashOrder] (s : ValidationSettings) (m : Model) :
    (referencesDefects s m).withoutSuggestions =
      repetitions m ++
        ((sites s.checkEmittedEvents m).filter fun o => o.Dangling m).map Site.violation ∧
    ((referencesDefects s m).ofKind .invalidReference).length =
      ((sites s.checkEmittedEvents m).filter fun o => o.isReference && o.Dangling m).length := by
  have hlist := withoutSuggestions_referencesDefects s m
  refine ⟨hlist, ?_⟩
  rw [← length_ofKind_withoutSuggestions, hlist, ofKind_append, ofKind_repetitions,
    List.nil_append]
  exact length_ofKind_violations _

end DeviceTwin.Validation
