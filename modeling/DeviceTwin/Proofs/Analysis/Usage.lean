import DeviceTwin.Analysis.Usage
import DeviceTwin.Proofs.Text.Names

/-!
# What is used

`Model.UsesEvent` and `Model.UsesSchema` say by the shape of a description what refers to an
event or to a schema. What is reported as unused is just what is declared and not used in this
sense, in the order of declaration: an event once, a schema once for each declaration.

Some texts of a description spell a name without referring to it. `Model.muted` takes away the
commands and conditions of triggers and `Model.withoutInlineIds` the identifiers of schemas that
are written out in place, and the reports stay as they are.
-/

namespace DeviceTwin

/-! ### Events -/

/-- The places at which a description refers to an event. -/
inductive Model.UsesEvent (m : Model) (name : String) : Prop where
  | trigger {machine : StateMachine} {t : Transition} (hmachine : m.stateMachine = some machine)
      (ht : t ∈ machine.transitions) (hname : t.trigger = .event name)
  | transition {machine : StateMachine} {t : Transition} {a : Action}
      (hmachine : m.stateMachine = some machine) (ht : t ∈ machine.transitions)
      (ha : t.action = some a) (hname : a.emitEvent = some name)
  | rule {r : Rule} (hr : r ∈ m.rules) (hname : r.action.emitEvent = some name)
  | success {c : Command} {e : CompletionEvents} (hc : c ∈ m.commands)
      (he : c.completionEvents = some e) (hname : e.onSuccess = some name)
  | failure {c : Command} {e : CompletionEvents} (hc : c ∈ m.commands)
      (he : c.completionEvents = some e) (hname : e.onFailure = some name)

namespace Trigger

theorem eventName?_eq_some_iff {t : Trigger} {name : String} :
    t.eventName? = some name ↔ t = .event name := by
  cases t <;> simp [eventName?]

/-- A trigger with its text taken away, unless that names an event. -/
def muted : Trigger → Trigger
  | .command _ => .command ""
  | .event name => .event name
  | .condition _ => .condition ""

@[simp] theorem eventName?_muted (t : Trigger) : t.muted.eventName? = t.eventName? := by
  cases t <;> rfl

end Trigger

theorem Command.mem_completionNames {c : Command} {name : String} :
    name ∈ c.completionNames ↔
      ∃ e, c.completionEvents = some e ∧ (e.onSuccess = some name ∨ e.onFailure = some name) := by
  unfold completionNames
  cases c.completionEvents <;> simp [CompletionEvents.names]

/-- A machine whose triggers are muted. -/
def StateMachine.muted (machine : StateMachine) : StateMachine :=
  { machine with
    transitions := machine.transitions.map fun t => { t with trigger := t.trigger.muted } }

namespace Model

variable {m : Model} {name : String}

theorem mem_transitions {t : Transition} :
    t ∈ m.transitions ↔ ∃ machine, m.stateMachine = some machine ∧ t ∈ machine.transitions := by
  unfold transitions
  cases m.stateMachine <;> simp

theorem mem_transitionEvents {t : Transition} :
    name ∈ transitionEvents t ↔
      t.trigger = .event name ∨ ∃ a, t.action = some a ∧ a.emitEvent = some name := by
  rw [transitionEvents, List.mem_append, Option.mem_toList, Option.mem_toList,
    Trigger.eventName?_eq_some_iff, Transition.emitted?, Option.bind_eq_some_iff]

/-- The events collected from a description are those that it refers to somewhere. -/
theorem mem_referencedEvents : name ∈ m.referencedEvents ↔ m.UsesEvent name := by
  simp only [referencedEvents, List.mem_append, List.mem_flatMap, mem_transitions,
    mem_transitionEvents, Option.mem_toList, Command.mem_completionNames]
  constructor
  · rintro ((⟨t, ⟨machine, hm, ht⟩, htrigger | ⟨a, ha, hname⟩⟩ | ⟨r, hr, hname⟩) |
      ⟨c, hc, e, he, hsuccess | hfailure⟩)
    · exact .trigger hm ht htrigger
    · exact .transition hm ht ha hname
    · exact .rule hr hname
    · exact .success hc he hsuccess
    · exact .failure hc he hfailure
  · rintro (⟨hm, ht, hname⟩ | ⟨hm, ht, ha, hname⟩ | ⟨hr, hname⟩ | ⟨hc, he, hname⟩ | ⟨hc, he, hname⟩)
    · exact .inl (.inl ⟨_, ⟨_, hm, ht⟩, .inl hname⟩)
    · exact .inl (.inl ⟨_, ⟨_, hm, ht⟩, .inr ⟨_, ha, hname⟩⟩)
    · exact .inl (.inr ⟨_, hr, hname⟩)
    · exact .inr ⟨_, hc, _, he, .inl hname⟩
    · exact .inr ⟨_, hc, _, he, .inr hname⟩

theorem mem_unusedEvents :
    name ∈ m.unusedEvents ↔ name ∈ m.eventNames ∧ name ∉ m.referencedEvents := by
  simp [unusedEvents]

/-- A description whose triggers are muted. -/
def muted (m : Model) : Model :=
  { m with stateMachine := m.stateMachine.map StateMachine.muted }

theorem transitions_muted (m : Model) :
    m.muted.transitions =
      m.transitions.map fun t => { t with trigger := t.trigger.muted } := by
  unfold transitions muted
  cases m.stateMachine <;> rfl

theorem referencedEvents_muted (m : Model) : m.muted.referencedEvents = m.referencedEvents := by
  have htransition : ∀ t : Transition,
      transitionEvents { t with trigger := t.trigger.muted } = transitionEvents t := by
    intro t
    rw [transitionEvents, Trigger.eventName?_muted, transitionEvents, Transition.emitted?,
      Transition.emitted?]
  rw [referencedEvents, transitions_muted, List.flatMap_map, funext htransition, referencedEvents]
  rfl

/-- Unused events are listed in the order in which they are declared first. -/
theorem unusedEvents_pairwise (m : Model) :
    m.unusedEvents.Pairwise fun a b => m.eventNames.idxOf a < m.eventNames.idxOf b := by
  rw [unusedEvents, Text.distinct_filter]
  exact (Text.distinct_pairwise m.eventNames).filter _

/-- The unused events are the declared ones that nothing refers to, each once and in the order
in which they are declared first, and all other declared ones are among those collected from the
description. What a trigger says of a command or a condition is of no matter. -/
theorem unusedEvents_exact (m : Model) :
    m.unusedEvents.Nodup ∧
    (m.unusedEvents.Pairwise fun a b => m.eventNames.idxOf a < m.eventNames.idxOf b) ∧
    (∀ name, name ∈ m.unusedEvents ↔ name ∈ m.eventNames ∧ ¬ m.UsesEvent name) ∧
    (∀ name ∈ m.eventNames, name ∉ m.unusedEvents ↔ name ∈ m.referencedEvents) ∧
    m.muted.unusedEvents = m.unusedEvents := by
  refine ⟨Text.nodup_distinct _, unusedEvents_pairwise m, fun name => ?_, fun name hname => ?_, ?_⟩
  · rw [mem_unusedEvents, mem_referencedEvents]
  · rw [mem_unusedEvents, not_and, not_not]
    exact ⟨fun h => h hname, fun h _ => h⟩
  · rw [unusedEvents, unusedEvents, referencedEvents_muted]
    rfl

end Model

/-! ### Schemas -/

/-- A name stands in a schema: it is the schema, or it stands in the schema of a field of one
that is written out in place. -/
inductive SchemaRef.Names (name : String) : SchemaRef → Prop where
  | named : Names name (.named name)
  | field {o : ObjectSchema} {f : SchemaField} (hf : f ∈ o.fields) (h : Names name f.schema) :
      Names name (.object o)

namespace SchemaRef

variable {name : String}

theorem names_object_iff {o : ObjectSchema} :
    (object o).Names name ↔ ∃ f ∈ o.fields, f.schema.Names name := by
  constructor
  · rintro (- | ⟨hf, h⟩)
    exact ⟨_, hf, h⟩
  · rintro ⟨f, hf, h⟩
    exact .field hf h

mutual

theorem mem_names_iff : ∀ s : SchemaRef, name ∈ s.names ↔ s.Names name
  | named n => by
      rw [names, List.mem_singleton]
      exact ⟨fun h => h ▸ .named, fun | .named => rfl⟩
  | object o => by rw [names, mem_objectNames_iff o, names_object_iff]

theorem mem_objectNames_iff :
    ∀ o : ObjectSchema, name ∈ objectNames o ↔ ∃ f ∈ o.fields, f.schema.Names name
  | ⟨_, _, _, fs⟩ => by rw [objectNames, mem_fieldsNames_iff fs]

theorem mem_fieldsNames_iff :
    ∀ fs : List SchemaField, name ∈ fieldsNames fs ↔ ∃ f ∈ fs, f.schema.Names name
  | [] => by simp [fieldsNames]
  | ⟨_, s⟩ :: fs => by simp [fieldsNames, mem_names_iff s, mem_fieldsNames_iff fs]

end

mutual

/-- A schema with the identifiers taken away from all schemas that are written out in it. -/
def withoutIds : SchemaRef → SchemaRef
  | named name => named name
  | object schema => object (objectWithoutIds schema)

def objectWithoutIds : ObjectSchema → ObjectSchema
  | ⟨_, kind, displayName, fields⟩ => ⟨none, kind, displayName, fieldsWithoutIds fields⟩

def fieldsWithoutIds : List SchemaField → List SchemaField
  | [] => []
  | ⟨name, schema⟩ :: fields => ⟨name, withoutIds schema⟩ :: fieldsWithoutIds fields

end

mutual

@[simp] theorem names_withoutIds : ∀ s : SchemaRef, s.withoutIds.names = s.names
  | named _ => by rw [withoutIds]
  | object o => by rw [withoutIds, names, names, objectNames_withoutIds o]

theorem objectNames_withoutIds :
    ∀ o : ObjectSchema, objectNames (objectWithoutIds o) = objectNames o
  | ⟨_, _, _, fs⟩ => by rw [objectWithoutIds, objectNames, objectNames, fieldsNames_withoutIds fs]

theorem fieldsNames_withoutIds :
    ∀ fs : List SchemaField, fieldsNames (fieldsWithoutIds fs) = fieldsNames fs
  | [] => by rw [fieldsWithoutIds]
  | ⟨_, s⟩ :: fs => by
      rw [fieldsWithoutIds, fieldsNames, fieldsNames, names_withoutIds s,
        fieldsNames_withoutIds fs]

end

end SchemaRef

namespace Model

/-- The schemas by which contents of the interface are described. -/
inductive Describes (m : Model) (s : SchemaRef) : Prop where
  | property {p : Property} (hp : p ∈ m.properties) (hs : p.schema = s)
  | telemetry {t : Telemetry} (ht : t ∈ m.telemetry) (hs : t.schema = s)
  | request {c : Command} {p : CommandPayload} (hc : c ∈ m.commands) (hp : c.request = some p)
      (hs : p.schema = s)
  | response {c : Command} {p : CommandPayload} (hc : c ∈ m.commands) (hp : c.response = some p)
      (hs : p.schema = s)
  | event {e : Event} (he : e ∈ m.events) (hs : e.schema = some s)

/-- A schema is used if its identifier stands in a description of contents, or in a field of a
declared schema that does not have this identifier itself. -/
def UsesSchema (m : Model) (id : String) : Prop :=
  (∃ s, m.Describes s ∧ s.Names id) ∨
    ∃ o ∈ m.schemas, o.id ≠ some id ∧ ∃ f ∈ o.fields, f.schema.Names id

variable {m : Model} {id : String}

theorem mem_contentSchemas : id ∈ m.contentSchemas ↔ ∃ s, m.Describes s ∧ s.Names id := by
  simp only [contentSchemas, payloads, List.mem_append, List.mem_flatMap, Option.mem_toList,
    SchemaRef.mem_names_iff]
  constructor
  · rintro (((⟨p, hp, h⟩ | ⟨t, ht, h⟩) | ⟨c, hc, p, hrequest | hresponse, h⟩) | ⟨e, he, s, hs, h⟩)
    · exact ⟨_, .property hp rfl, h⟩
    · exact ⟨_, .telemetry ht rfl, h⟩
    · exact ⟨_, .request hc hrequest rfl, h⟩
    · exact ⟨_, .response hc hresponse rfl, h⟩
    · exact ⟨_, .event he hs, h⟩
  · rintro ⟨_, ⟨hp, rfl⟩ | ⟨ht, rfl⟩ | ⟨hc, hp, rfl⟩ | ⟨hc, hp, rfl⟩ | ⟨he, hs⟩, h⟩
    · exact .inl (.inl (.inl ⟨_, hp, h⟩))
    · exact .inl (.inl (.inr ⟨_, ht, h⟩))
    · exact .inl (.inr ⟨_, hc, _, .inl hp, h⟩)
    · exact .inl (.inr ⟨_, hc, _, .inr hp, h⟩)
    · exact .inr ⟨_, he, _, hs, h⟩

theorem mem_otherSchemas {o : ObjectSchema} :
    id ∈ otherSchemas o ↔ o.id ≠ some id ∧ ∃ f ∈ o.fields, f.schema.Names id := by
  rw [otherSchemas, List.mem_filter, bne_iff_ne, ObjectSchema.names, SchemaRef.mem_objectNames_iff,
    and_comm, ne_comm]

theorem mem_usedSchemas : id ∈ m.usedSchemas ↔ m.UsesSchema id := by
  rw [usedSchemas, List.mem_append, List.mem_flatMap, mem_contentSchemas, UsesSchema]
  simp only [mem_otherSchemas]

instance (m : Model) (id : String) : Decidable (m.UsesSchema id) :=
  decidable_of_iff _ mem_usedSchemas

/-- A description in which schemas that are written out in place have no identifiers. The
declared schemas keep theirs. -/
def withoutInlineIds (m : Model) : Model :=
  { m with
    schemas := m.schemas.map fun o =>
      { o with fields := SchemaRef.fieldsWithoutIds o.fields }
    properties := m.properties.map fun p => { p with schema := p.schema.withoutIds }
    telemetry := m.telemetry.map fun t => { t with schema := t.schema.withoutIds }
    commands := m.commands.map fun c =>
      { c with
        request := c.request.map fun p => { p with schema := p.schema.withoutIds }
        response := c.response.map fun p => { p with schema := p.schema.withoutIds } }
    events := m.events.map fun e => { e with schema := e.schema.map SchemaRef.withoutIds } }

theorem contentSchemas_withoutInlineIds (m : Model) :
    m.withoutInlineIds.contentSchemas = m.contentSchemas := by
  simp [contentSchemas, withoutInlineIds, payloads, List.flatMap_map, Option.toList_map]

theorem usedSchemas_withoutInlineIds (m : Model) :
    m.withoutInlineIds.usedSchemas = m.usedSchemas := by
  have hother : ∀ o : ObjectSchema,
      otherSchemas { o with fields := SchemaRef.fieldsWithoutIds o.fields } = otherSchemas o := by
    rintro ⟨id, kind, displayName, fields⟩
    simp only [otherSchemas, ObjectSchema.names, SchemaRef.objectNames,
      SchemaRef.fieldsNames_withoutIds]
  rw [usedSchemas, contentSchemas_withoutInlineIds, withoutInlineIds, List.flatMap_map,
    funext hother, usedSchemas]

/-- The unused schemas are the identifiers of the declared ones, in the order of declaration and
without those that are used. The identifiers of schemas that are written out in place are of no
matter. -/
theorem unusedSchemas_exact (m : Model) :
    m.unusedSchemas = (m.schemas.filterMap ObjectSchema.id).filter (fun id => ¬ m.UsesSchema id) ∧
    m.withoutInlineIds.unusedSchemas = m.unusedSchemas := by
  constructor
  · rw [unusedSchemas]
    refine List.filter_congr fun id _ => ?_
    rw [← List.elem_eq_contains, List.elem_eq_mem, ← decide_not]
    exact decide_eq_decide.2 (not_congr mem_usedSchemas)
  · have hids : m.withoutInlineIds.schemas.filterMap ObjectSchema.id =
        m.schemas.filterMap ObjectSchema.id := by
      rw [withoutInlineIds, List.filterMap_map]
      rfl
    rw [unusedSchemas, hids, usedSchemas_withoutInlineIds, unusedSchemas]

/-- A tree that names itself below a leaf uses neither itself nor a schema with the identifier
of the leaf. -/
example :
    let leaf : ObjectSchema := .new "dtmi:leaf;1" [⟨"parent", .named "dtmi:tree;1"⟩]
    let tree : ObjectSchema := .new "dtmi:tree;1" [⟨"child", .object leaf⟩]
    ((new "dtmi:a;1" "A" "").add (.schemas [tree, .new "dtmi:leaf;1" []])).unusedSchemas =
      ["dtmi:tree;1", "dtmi:leaf;1"] := by
  decide

/-! ### Repetitions

Several events may have one name and several schemas one identifier. The name is reported once,
the identifier once for each declaration. -/

/-- The identifiers of the declared schemas, once for each declaration. -/
def schemaIds (m : Model) : List String :=
  m.schemas.filterMap ObjectSchema.id

theorem unusedSchemas_sublist (m : Model) : m.unusedSchemas.Sublist m.schemaIds :=
  List.filter_sublist

theorem count_unusedSchemas (m : Model) (id : String) :
    m.unusedSchemas.count id = if m.UsesSchema id then 0 else m.schemaIds.count id := by
  rw [unusedSchemas]
  split
  case isTrue hused =>
    refine List.count_eq_zero.2 fun h => ?_
    simp [mem_usedSchemas.2 hused] at h
  case isFalse hused =>
    have hkept : (!m.usedSchemas.contains id) = true := by
      simpa using fun h => hused (mem_usedSchemas.1 h)
    exact List.count_filter hkept

theorem nodup_unusedSchemas_iff (m : Model) :
    m.unusedSchemas.Nodup ↔ ∀ id, ¬ m.UsesSchema id → m.schemaIds.count id ≤ 1 := by
  rw [List.nodup_iff_count_le_one]
  refine forall_congr' fun id => ?_
  rw [count_unusedSchemas]
  by_cases hused : m.UsesSchema id <;> simp [hused]

/-- Without repetitions the unused schemas are in the order in which they are declared first. -/
theorem distinct_unusedSchemas_pairwise (m : Model) :
    (Text.distinct m.unusedSchemas).Pairwise fun a b =>
      m.schemaIds.idxOf a < m.schemaIds.idxOf b := by
  rw [unusedSchemas, Text.distinct_filter]
  exact (Text.distinct_pairwise m.schemaIds).filter _

/-- **Repetitions in the report of what is unused.** An event name stands in it once, in the
order of first declaration. The schemas stand there in the order of declaration as well, but each
unused one as often as it is declared: once only if no other declaration has its identifier. -/
theorem unused_repetitions (m : Model) :
    (m.unused.events.Nodup ∧
      m.unused.events.Pairwise fun a b => m.eventNames.idxOf a < m.eventNames.idxOf b) ∧
    (m.unused.schemas.Sublist m.schemaIds ∧
      (Text.distinct m.unused.schemas).Pairwise fun a b =>
        m.schemaIds.idxOf a < m.schemaIds.idxOf b) ∧
    (∀ id, m.unused.schemas.count id =
      if m.UsesSchema id then 0 else m.schemaIds.count id) ∧
    (m.unused.schemas.Nodup ↔ ∀ id, ¬ m.UsesSchema id → m.schemaIds.count id ≤ 1) :=
  ⟨⟨Text.nodup_distinct _, unusedEvents_pairwise m⟩,
    ⟨unusedSchemas_sublist m, distinct_unusedSchemas_pairwise m⟩,
    count_unusedSchemas m, nodup_unusedSchemas_iff m⟩

/-- A description with two schemas of one identifier has it twice among what is unused. -/
theorem unused_schema_twice :
    let m := (new "dtmi:a;1" "A" "A").add
      (.schemas [.new "dtmi:b;1" [], .new "dtmi:b;1" []])
    m.unused.schemas = ["dtmi:b;1", "dtmi:b;1"] ∧ ¬ m.unused.schemas.Nodup := by
  decide

end Model

end DeviceTwin
