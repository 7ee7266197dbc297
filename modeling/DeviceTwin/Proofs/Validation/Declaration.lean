import DeviceTwin.Proofs.Validation.Footprint
import DeviceTwin.Proofs.Validation.Suggestion

/-!
# Declaring what is missing

One more event or command, under a name that none had before, adds this name to those that are
declared and changes nothing else that the checks look at (`Declares`). The sites are the same
then, and of those that dangled the ones that name it do not any more, so the report loses what
is said of them and is otherwise as before (`Declares.repairsOnly`). Commands and events are
declared apart from each other: a missing command is not found by declaring an event of its name.
-/

namespace DeviceTwin

/-- What a defect tells of as undeclared. -/
def Defect.missing? : Defect → Option (ElementKind × String)
  | .invalidReference _ _ targetKind targetName _ => some (targetKind, targetName)
  | _ => none

theorem Defect.missing?_withoutSuggestion (d : Defect) :
    d.withoutSuggestion.missing? = d.missing? := by
  cases d <;> rfl

namespace Defects

variable {kind : ElementKind} {name : String} {ds ds' : Defects}

/-- A name of something undeclared is found now: what is told of it is left out. -/
def resolve (kind : ElementKind) (name : String) (ds : Defects) : Defects :=
  ds.filter fun d => d.missing? ≠ some (kind, name)

theorem resolve_append :
    resolve kind name (ds ++ ds') = ds.resolve kind name ++ ds'.resolve kind name :=
  List.filter_append ..

theorem resolve_eq_self (h : ∀ d ∈ ds, d.missing? = none) : ds.resolve kind name = ds := by
  refine List.filter_eq_self.2 fun d hd => ?_
  rw [h d hd]
  exact decide_eq_true nofun

/-- Only what is said of references is ever left out. -/
theorem missing?_eq_none (h : ds.ofKind .invalidReference = []) :
    ∀ d ∈ ds.withoutSuggestions, d.missing? = none := by
  refine List.forall_mem_map.2 fun d hd => ?_
  rw [Defect.missing?_withoutSuggestion]
  cases d with
  | invalidReference => exact absurd rfl (List.filter_eq_nil_iff.1 h _ hd)
  | _ => rfl

/-- The second report is the first one without what it says of one missing name. So nothing in
it is new, and what is said of things of another kind is said again, whatever their names. -/
structure RepairsOnly (kind : ElementKind) (name : String) (before after : Defects) : Prop where
  rest : after = before.filter fun d => d.missing? ≠ some (kind, name)
  nothingNew : after.Sublist before
  otherKinds : ∀ kind' name', kind' ≠ kind →
    (after.filter fun d => d.missing? = some (kind', name')) =
      before.filter fun d => d.missing? = some (kind', name')

theorem repairsOnly_resolve (kind : ElementKind) (name : String) (ds : Defects) :
    RepairsOnly kind name ds (ds.resolve kind name) where
  rest := rfl
  nothingNew := List.filter_sublist
  otherKinds kind' name' hkind := by
    rw [resolve, List.filter_filter]
    refine List.filter_congr fun d _ => ?_
    by_cases hd : d.missing? = some (kind', name')
    · simp [hd, hkind]
    · simp [hd]

end Defects

theorem Text.secondOccurrences_append_singleton {names : List String} {name : String}
    (h : name ∉ names) : secondOccurrences (names ++ [name]) = secondOccurrences names := by
  have hbefore : (names.zipIdx.filter fun e => ((names ++ [name]).take e.2).count e.1 = 1) =
      names.zipIdx.filter fun e => (names.take e.2).count e.1 = 1 := by
    refine List.filter_congr fun e he => ?_
    have hlt : e.2 < names.length := by
      simpa using (List.mem_zipIdx he).2.1
    rw [List.take_append_of_le_length (Nat.le_of_lt hlt)]
  have hzero : names.count name = 0 := List.count_eq_zero.2 h
  rw [secondOccurrences, List.zipIdx_append, List.filter_append, hbefore, List.map_append,
    secondOccurrences]
  simp [hzero]

namespace Validation

open DeviceTwin.Suggestion DeviceTwin.Text

/-- The second description declares what the first one does and one thing more, and refers to
the same things at the same places. -/
structure Declares (kind : ElementKind) (name : String) (m m' : Model) : Prop where
  declared : ∀ k n, n ∈ declaredNames m' k ↔ n ∈ declaredNames m k ∨ k = kind ∧ n = name
  sites : ∀ checked, sites checked m' = sites checked m
  repetitions : repetitions m' = repetitions m
  heading : m'.heading = m.heading
  machine : m'.stateMachine = m.stateMachine

namespace Declares

variable {kind : ElementKind} {name : String} {m m' : Model}

theorem dangling_iff (h : Declares kind name m m') (o : Site) :
    o.Dangling m' ↔ o.Dangling m ∧ ¬ (o.kind = kind ∧ o.name = name) := by
  rw [Site.Dangling, Site.Dangling, h.declared, not_or]

/-- Only a reference is told of as something missing; the ends of a transition are not. -/
theorem missing?_violation_iff (hkind : kind ≠ .state) (o : Site) :
    o.violation.missing? = some (kind, name) ↔ o.kind = kind ∧ o.name = name := by
  cases o with
  | reference r =>
      rw [Site.violation, Defect.missing?, Option.some.injEq, Prod.mk.injEq]
      exact Iff.rfl
  | endpoint t role n => exact iff_of_false nofun fun h => hkind h.1.symm

theorem violations_eq (h : Declares kind name m m') (hkind : kind ≠ .state) (os : List Site) :
    violations m' os = Defects.resolve kind name (violations m os) := by
  have hdangling : (os.filter fun o => o.Dangling m') =
      (os.filter fun o => o.Dangling m).filter fun o =>
        o.violation.missing? ≠ some (kind, name) := by
    rw [List.filter_filter]
    refine List.filter_congr fun o _ => ?_
    rw [← Bool.decide_and]
    refine decide_eq_decide.2 ?_
    rw [h.dangling_iff, Ne, missing?_violation_iff hkind, and_comm]
  rw [violations, hdangling, Defects.resolve, violations, List.filter_map]
  rfl

theorem repairsOnly [Matcher] [HashOrder] (h : Declares kind name m m') (hkind : kind ≠ .state)
    (s : ValidationSettings) :
    Defects.RepairsOnly kind name (check s m).withoutSuggestions
      (check s m').withoutSuggestions := by
  have hroot : structureDefects s.expectedContext m' = structureDefects s.expectedContext m :=
    structureDefects_congr _ h.heading
  have hstates : stateDefects m' = stateDefects m := by
    rw [stateDefects, stateDefects, h.machine]
  have hroots : ∀ d ∈ (structureDefects s.expectedContext m).withoutSuggestions,
      d.missing? = none := Defects.missing?_eq_none (ofKind_structureDefects _ m)
  have hstate : ∀ d ∈ (stateDefects m).withoutSuggestions, d.missing? = none := by
    refine Defects.missing?_eq_none ?_
    rw [stateDefects]
    cases m.stateMachine with
    | none => rfl
    | some machine => exact ofKind_reachabilityDefects machine
  have hrepeated : ∀ d ∈ Validation.repetitions m, d.missing? = none :=
    forall_mem_repetitions fun _ _ => rfl
  have hcheck : (check s m').withoutSuggestions =
      (check s m).withoutSuggestions.resolve kind name := by
    simp only [withoutSuggestions_check, hroot, hstates, h.repetitions, h.sites,
      h.violations_eq hkind, Defects.resolve_append, Defects.resolve_eq_self hroots,
      Defects.resolve_eq_self hstate, Defects.resolve_eq_self hrepeated]
  rw [hcheck]
  exact Defects.repairsOnly_resolve kind name _

end Declares

/-! ### Events and commands -/

section Fresh

variable {m : Model}

theorem eventNames_add (m : Model) (e : Event) :
    (m.add (.events [e])).eventNames = m.eventNames ++ [e.name] :=
  List.map_append

theorem commandNames_add (m : Model) (c : Command) :
    (m.add (.commands [c])).commandNames = m.commandNames ++ [c.name] :=
  List.map_append

/-- An event declares its name and refers to nothing. -/
theorem declares_event {e : Event} (h : e.name ∉ m.eventNames) :
    Declares .event e.name m (m.add (.events [e])) where
  declared k n := by
    cases k with
    | event => simp [declaredNames, eventNames_add]
    | _ => simp [declaredNames, Model.add, Model.commandNames]
  sites _ := rfl
  repetitions := by
    have hnames := Text.secondOccurrences_append_singleton h
    rw [repetitions, eventNames_add, hnames]
    rfl
  heading := rfl
  machine := rfl

/-- A command declares its name, and refers to the events that it raises when it is done. -/
theorem declares_command {c : Command} (h : c.name ∉ m.commandNames)
    (hnone : c.completionNames = []) :
    Declares .command c.name m (m.add (.commands [c])) where
  declared k n := by
    cases k with
    | command => simp [declaredNames, commandNames_add]
    | _ => simp [declaredNames, Model.add, Model.eventNames]
  sites checked := by
    have hsites : (m.commands ++ [c]).flatMap commandSites = m.commands.flatMap commandSites := by
      rw [List.flatMap_append, List.flatMap_singleton, commandSites, hnone, List.map_nil,
        List.append_nil]
    exact congrArg (fun os => _ ++ os ++ _) hsites
  repetitions := by
    have hnames := Text.secondOccurrences_append_singleton h
    rw [repetitions, commandNames_add, hnames]
    rfl
  heading := rfl
  machine := rfl

end Fresh

/-- Suggestions apart, an event under a name that no event had before repairs just the
references to events that missed this name, and so does a command that raises no event for the
references to commands. All other defects stay, in their order, also those of things of the
same name but of another kind, and there are no new ones. -/
theorem declaring_repairs_own_references [Matcher] [HashOrder] (s : ValidationSettings)
    (m : Model) :
    (∀ e : Event, e.name ∉ m.eventNames →
      Defects.RepairsOnly .event e.name (check s m).withoutSuggestions
        (check s (m.add (.events [e]))).withoutSuggestions) ∧
    ∀ c : Command, c.name ∉ m.commandNames → c.completionNames = [] →
      Defects.RepairsOnly .command c.name (check s m).withoutSuggestions
        (check s (m.add (.commands [c]))).withoutSuggestions :=
  ⟨fun _ h => (declares_event h).repairsOnly nofun s,
    fun _ h hnone => (declares_command h hnone).repairsOnly nofun s⟩

/-- A door that refers to a command and, at three places, to an event, which are both missing
and share their name. -/
def door : Model :=
  (Model.new "dtmi:demo:door;1" "Door" "Opens").addAll
    [.commands [.withCompletionEvents (some "open") none (.new "unlock")],
      .stateMachine ((((StateMachine.new "shut").withStates ["shut", "ajar"]).withTransition
        ⟨"shut", "ajar", .command "open", some (.emit "open")⟩).withTransition
        ⟨"ajar", "shut", .event "open", none⟩)]

open scoped Concrete

theorem declaring_repairs_own_references_door :
    ("open" ∉ door.eventNames ∧ (check .standard door).length = 4 ∧
      check .standard (door.add (.events [.new "open"])) =
        [.invalidReference .trigger "shut -> ajar" .command "open" none] ∧
      Defects.RepairsOnly .event "open" (check .standard door).withoutSuggestions
        (check .standard (door.add (.events [.new "open"]))).withoutSuggestions) ∧
    "open" ∉ door.commandNames ∧ (Command.new "open").completionNames = [] ∧
      (check .standard (door.add (.commands [.new "open"]))).length = 3 ∧
      Defects.RepairsOnly .command "open" (check .standard door).withoutSuggestions
        (check .standard (door.add (.commands [.new "open"]))).withoutSuggestions := by
  have hevent : "open" ∉ door.eventNames := by decide
  have hcommand : "open" ∉ door.commandNames := by decide
  have hnone : (Command.new "open").completionNames = [] := rfl
  obtain ⟨hevents, hcommands⟩ := declaring_repairs_own_references .standard door
  exact ⟨⟨hevent, by decide, by decide, hevents (.new "open") hevent⟩, hcommand, hnone, by decide,
    hcommands (.new "open") hcommand hnone⟩

end Validation

end DeviceTwin
