import DeviceTwin.Analysis.Usage
import DeviceTwin.Proofs.Json.Growth
import DeviceTwin.Proofs.Model.Form.Basic

/-!
# How high a description is written that was read

Lists of states, transitions and fields and the actions of rules may be left out, and are
written all the same, so a description can be written higher than it was read. It matters
for the fields of object schemas only, as those nest without end: their list adds a bracket
inside of the innermost object schema. A schema in which `k` of them are nested stays below
`3 * k` brackets, or has no more than the text (`SchemaRef.codec_staysBelow`), and a
description whose schemas are nested at most 41 deep stays within the limit
(`Model.height_write_le`). Deeper ones exceed it (`Model.limit_lt_height_write`).
-/

namespace DeviceTwin

open DeviceTwin.Json DeviceTwin.Json.Field DeviceTwin.Json.Codec

variable {n b : ℕ}

/-! ### Schemas -/

theorem SchemaField.staysBelow {c : Codec SchemaRef} {f : SchemaField}
    (h : c.StaysBelow n f.schema) : (SchemaField.record c).codec.StaysBelow (n + 1) f :=
  Record.staysBelow (fun _ => rfl)
    ⟨required_staysBelow _ (string_staysBelow _), required_staysBelow _ h, trivial⟩

/-- Around a schema stand the brackets of its field, of the list of fields and of the object
schema; the list is written even if it was left out. -/
theorem ObjectSchema.recordOf_staysBelow {c : Codec SchemaRef} {s : ObjectSchema}
    (h : ∀ f ∈ s.fields, c.StaysBelow n f.schema) :
    (ObjectSchema.recordOf c).codec.StaysBelow (n + 3) s := by
  have hfields : (SchemaField.record c).codec.list.StaysBelow (n + 2) s.fields :=
    list_staysBelow fun f hf => SchemaField.staysBelow (h f hf)
  refine Record.staysBelow (fun _ => rfl) ?_
  exact ⟨optional_string_staysBelow _ _,
    withDefault_staysBelow _ (lt_max_of_lt_right Nat.zero_lt_one) (string_staysBelow _),
    optional_string_staysBelow _ _,
    withDefault_staysBelow _ (lt_max_of_lt_left (Nat.succ_lt_succ (Nat.succ_pos n))) hfields,
    trivial⟩

/-- The schemas in an object schema that was read were read. -/
theorem ObjectSchema.gives_fields {c : Codec SchemaRef} {s : ObjectSchema}
    (h : (ObjectSchema.recordOf c).read.Gives b s) :
    ∀ f ∈ s.fields, ∃ b', c.read.Gives b' f.schema := by
  intro f hf
  obtain ⟨b, ⟨id, kind, displayName, fields, ⟨⟩⟩, -, ⟨-, -, -, hfields, -⟩, rfl⟩ :=
    Record.gives_parts h
  obtain ⟨b, hf⟩ := Reader.gives_items hfields f hf
  obtain ⟨b, ⟨name, schema, ⟨⟩⟩, -, ⟨-, hschema, -⟩, rfl⟩ := Record.gives_parts hf
  exact ⟨b, hschema.resolve_left nofun⟩

namespace SchemaRef

/-- A value that is read as a schema is a name, or is read as an object schema. -/
theorem gives_object {s : SchemaRef} (h : (codecWithin (n + 1)).read.Gives b s) :
    (∃ name, s = .named name) ∨
      ∃ schema, s = .object schema ∧
        (ObjectSchema.recordOf (codecWithin n)).read.Gives b schema := by
  obtain ⟨c, d, hb, h⟩ := h
  have hread : c.Fits d.height ∧
      ofWhole (ObjectSchema.recordOf (codecWithin n)).read d = .ok s := by
    simp only [codecWithin] at h
    split_ifs at h with hsource
    · obtain ⟨⟨⟩, hcheck, h⟩ := bind_eq_ok_iff.1 h
      exact ⟨Document.fits_of_check hcheck, h⟩
    · exact ⟨fun heq => absurd heq hsource, h⟩
  obtain ⟨hfits, hwhole⟩ := hread
  rw [Context.reach_of_fits hfits] at hb
  rw [ofWhole] at hwhole
  split at hwhole
  · exact .inl ⟨_, (Except.ok.inj hwhole).symm⟩
  · split at hwhole
    · rename_i schema hschema
      exact .inr ⟨schema, (Except.ok.inj hwhole).symm, .buffered, d, hb, hschema⟩
    · cases hwhole

theorem not_gives_zero (s : SchemaRef) : ¬ (codecWithin 0).read.Gives b s := by
  rintro ⟨c, d, -, h⟩
  exact nomatch h

/-- A codec gives no schemas that are deeper than those that it is made for. -/
theorem height_le_of_gives {s : SchemaRef} (h : (codecWithin n).read.Gives b s) :
    s.height ≤ n := by
  induction n generalizing b s with
  | zero => exact absurd h (not_gives_zero s)
  | succ n ih =>
      rcases gives_object h with ⟨name, rfl⟩ | ⟨⟨id, kind, displayName, fields⟩, rfl, hobject⟩
      · exact Nat.succ_le_succ (Nat.zero_le n)
      · refine Nat.succ_le_succ (fieldsHeight_le fun f hf => ?_)
        obtain ⟨b', hb'⟩ := ObjectSchema.gives_fields hobject f hf
        exact ih hb'

theorem codecWithin_staysBelow (s : SchemaRef) :
    (codecWithin n).StaysBelow (3 * s.nesting) s := by
  induction n generalizing s with
  | zero => exact fun b h => absurd h (not_gives_zero s)
  | succ n ih =>
      intro b h
      rcases gives_object h with ⟨name, rfl⟩ | ⟨⟨id, kind, displayName, fields⟩, rfl, hobject⟩
      · exact staysBelow_of_height_eq_zero (c := codecWithin (n + 1)) rfl b h
      · have hfields : ∀ f ∈ fields,
            (codecWithin n).StaysBelow (3 * fieldsNesting fields) f.schema := by
          intro f hf
          exact (ih f.schema).mono
            (Nat.mul_le_mul_left 3 (fieldsNesting_le_iff.1 (Nat.le_refl _) f hf))
        exact ObjectSchema.recordOf_staysBelow (s := ⟨id, kind, displayName, fields⟩) hfields b
          hobject

/-- A schema that was read is written below three brackets for each object schema nested in
it, or with no more than could be open in the text. -/
theorem codec_staysBelow (s : SchemaRef) : codec.StaysBelow (3 * s.nesting) s := by
  rintro b ⟨c, d, hb, h⟩
  have hgives : (codecWithin (d.height + 1)).read.Gives b s := ⟨c, d, hb, h⟩
  have hwrite : codec.write s = (codecWithin (d.height + 1)).write s :=
    codecWithin_write_congr (Nat.le_refl _) (height_le_of_gives hgives)
  rw [hwrite]
  exact codecWithin_staysBelow s b hgives

theorem codec_staysBelow_of_nesting_le {s : SchemaRef} {k : ℕ} (h : s.nesting ≤ k)
    (hn : 3 * k ≤ n) : codec.StaysBelow n s :=
  (codec_staysBelow s).mono (Nat.le_trans (Nat.mul_le_mul_left 3 h) hn)

end SchemaRef

theorem ObjectSchema.staysBelow {s : ObjectSchema}
    (h : ∀ f ∈ s.fields, SchemaRef.codec.StaysBelow n f.schema) :
    ObjectSchema.record.codec.StaysBelow (n + 3) s :=
  ObjectSchema.recordOf_staysBelow h

/-! ### Contents -/

theorem Property.staysBelow {p : Property} (h : SchemaRef.codec.StaysBelow n p.schema) :
    Property.record.codec.StaysBelow (n + 1) p :=
  Record.staysBelow (fun _ => rfl)
    ⟨required_staysBelow _ (string_staysBelow _), required_staysBelow _ h,
      optional_string_staysBelow _ _, optional_string_staysBelow _ _,
      optional_string_staysBelow _ _, withDefault_false_staysBelow _ _, trivial⟩

theorem Telemetry.staysBelow {t : Telemetry} (h : SchemaRef.codec.StaysBelow n t.schema) :
    Telemetry.record.codec.StaysBelow (n + 1) t :=
  Record.staysBelow (fun _ => rfl)
    ⟨required_staysBelow _ (string_staysBelow _), required_staysBelow _ h,
      optional_string_staysBelow _ _, optional_string_staysBelow _ _,
      optional_string_staysBelow _ _, trivial⟩

theorem CommandPayload.staysBelow {p : CommandPayload}
    (h : SchemaRef.codec.StaysBelow n p.schema) :
    CommandPayload.record.codec.StaysBelow (n + 1) p :=
  Record.staysBelow (fun _ => rfl)
    ⟨required_staysBelow _ (string_staysBelow _), required_staysBelow _ h, trivial⟩

theorem CompletionEvents.staysBelow (e : CompletionEvents) :
    CompletionEvents.record.codec.StaysBelow (n + 1) e :=
  Record.staysBelow (fun _ => rfl)
    ⟨optional_string_staysBelow _ _, optional_string_staysBelow _ _, trivial⟩

theorem Command.staysBelow {c : Command}
    (h : ∀ p ∈ Model.payloads c, SchemaRef.codec.StaysBelow n p.schema) :
    Command.record.codec.StaysBelow (n + 2) c := by
  have hrequest : ∀ p ∈ c.request, CommandPayload.record.codec.StaysBelow (n + 1) p :=
    fun p hp => CommandPayload.staysBelow
      (h p (List.mem_append_left _ (Option.mem_toList.2 hp)))
  have hresponse : ∀ p ∈ c.response, CommandPayload.record.codec.StaysBelow (n + 1) p :=
    fun p hp => CommandPayload.staysBelow
      (h p (List.mem_append_right _ (Option.mem_toList.2 hp)))
  refine Record.staysBelow (fun _ => rfl) ?_
  exact ⟨required_staysBelow _ (string_staysBelow _), optional_string_staysBelow _ _,
    optional_string_staysBelow _ _, optional_staysBelow _ hrequest,
    optional_staysBelow _ hresponse, optional_string_staysBelow _ _,
    optional_staysBelow _ fun _ _ => staysBelow_of_height_eq_zero rfl,
    optional_staysBelow _ fun e _ => e.staysBelow, trivial⟩

theorem Event.staysBelow {e : Event} (h : ∀ s ∈ e.schema, SchemaRef.codec.StaysBelow n s) :
    Event.record.codec.StaysBelow (n + 1) e :=
  Record.staysBelow (fun _ => rfl)
    ⟨required_staysBelow _ (string_staysBelow _), optional_string_staysBelow _ _,
      optional_string_staysBelow _ _, optional_staysBelow _ h, trivial⟩

theorem Relationship.staysBelow (r : Relationship) :
    Relationship.record.codec.StaysBelow (n + 1) r :=
  Record.staysBelow (fun _ => rfl)
    ⟨required_staysBelow _ (string_staysBelow _), optional_string_staysBelow _ _,
      optional_staysBelow _ fun _ _ => staysBelow_of_height_eq_zero rfl,
      optional_staysBelow _ fun _ _ => staysBelow_of_height_eq_zero rfl,
      withDefault_false_staysBelow _ _, trivial⟩

/-! ### State machines -/

theorem State.staysBelow (s : State) : State.record.codec.StaysBelow (n + 1) s :=
  Record.staysBelow (fun _ => rfl)
    ⟨required_staysBelow _ (string_staysBelow _), optional_string_staysBelow _ _,
      optional_string_staysBelow _ _, trivial⟩

theorem Trigger.staysBelow (t : Trigger) : Trigger.codec.StaysBelow (n + 2) t := by
  have hheight : (Trigger.write t).height = 1 := by cases t <;> rfl
  refine staysBelow_of_height_lt ?_
  rw [Trigger.codec, hheight]
  omega

theorem PropertyUpdate.staysBelow (u : PropertyUpdate) :
    PropertyUpdate.record.codec.StaysBelow (n + 1) u :=
  Record.staysBelow (fun _ => rfl)
    ⟨required_staysBelow _ (string_staysBelow _), required_staysBelow _ (free_staysBelow _),
      trivial⟩

theorem Action.staysBelow (a : Action) : Action.record.codec.StaysBelow (n + 2) a :=
  Record.staysBelow (fun _ => rfl)
    ⟨optional_string_staysBelow _ _, optional_staysBelow _ fun u _ => u.staysBelow, trivial⟩

theorem Transition.staysBelow (t : Transition) : Transition.record.codec.StaysBelow (n + 3) t :=
  Record.staysBelow (fun _ => rfl)
    ⟨required_staysBelow _ (string_staysBelow _), required_staysBelow _ (string_staysBelow _),
      required_staysBelow _ (Trigger.staysBelow _), optional_staysBelow _ fun a _ => a.staysBelow,
      trivial⟩

theorem StateMachine.staysBelow (m : StateMachine) :
    StateMachine.record.codec.StaysBelow (n + 5) m := by
  have hempty : 1 < max (n + 4) 1 := by omega
  refine Record.staysBelow (fun _ => rfl) ?_
  exact ⟨required_staysBelow _ (string_staysBelow _),
    withDefault_staysBelow _ hempty (list_staysBelow fun s _ => s.staysBelow),
    withDefault_staysBelow _ hempty (list_staysBelow fun t _ => t.staysBelow), trivial⟩

/-! ### Physics, rules, goals and learned models -/

theorem Physics.parameters_staysBelow (t : Text.Table Number.Double) :
    Field.StaysBelow ⟨"parameters", Text.Table Number.Double, some .empty, Codec.doubles.read,
      fun t => if t.isEmpty then none else some (Codec.doubles.write t)⟩ (n + 2) t := by
  intro b _ j hj
  dsimp only at hj
  split_ifs at hj
  · exact absurd hj (Option.not_mem_none j)
  · obtain rfl := Option.some.inj hj
    have hheight : (Codec.doubles.write t).height = 1 :=
      congrArg (· + 1) (doubles_entriesHeight t.entries)
    omega

theorem Physics.staysBelow (p : Physics) : Physics.record.codec.StaysBelow (n + 3) p :=
  Record.staysBelow (fun _ => rfl)
    ⟨required_staysBelow _ (string_staysBelow _), parameters_staysBelow _,
      Field.list_staysBelow _ fun s _ => string_staysBelow s, trivial⟩

theorem Rule.staysBelow (r : Rule) : Rule.record.codec.StaysBelow (n + 3) r := by
  have hnothing : (Action.record.codec.write .nothing).height < max (n + 2) 1 := by
    change 1 < max (n + 2) 1
    omega
  refine Record.staysBelow (fun _ => rfl) ?_
  exact ⟨required_staysBelow _ (string_staysBelow _), required_staysBelow _ (string_staysBelow _),
    withDefault_staysBelow _ hnothing (Action.staysBelow _),
    optional_staysBelow _ fun _ _ => staysBelow_of_height_eq_zero rfl, trivial⟩

theorem Goal.staysBelow (g : Goal) : Goal.record.codec.StaysBelow (n + 1) g :=
  Record.staysBelow (fun _ => rfl)
    ⟨required_staysBelow _ (string_staysBelow _), optional_string_staysBelow _ _,
      optional_string_staysBelow _ _, optional_staysBelow _ fun v _ => free_staysBelow v, trivial⟩

theorem AiModel.staysBelow (m : AiModel) : AiModel.record.codec.StaysBelow (n + 2) m :=
  Record.staysBelow (fun _ => rfl)
    ⟨required_staysBelow _ (string_staysBelow _), required_staysBelow _ (string_staysBelow _),
      Field.list_staysBelow _ fun s _ => string_staysBelow s,
      Field.list_staysBelow _ fun s _ => string_staysBelow s, optional_string_staysBelow _ _,
      trivial⟩

/-! ### Whole descriptions -/

namespace Model

/-- The schemas of a description, once for each place: those of the fields of declared
schemas, of properties, telemetry, payloads and events. -/
def schemaRefs (m : Model) : List SchemaRef :=
  m.schemas.flatMap (fun s => s.fields.map SchemaField.schema) ++
    m.properties.map Property.schema ++ m.telemetry.map Telemetry.schema ++
    m.commands.flatMap (fun c => (payloads c).map CommandPayload.schema) ++
    m.events.flatMap (fun e => e.schema.toList)

theorem forall_mem_schemaRefs {m : Model} {P : SchemaRef → Prop} :
    (∀ s ∈ m.schemaRefs, P s) ↔
      (∀ s ∈ m.schemas, ∀ f ∈ s.fields, P f.schema) ∧ (∀ p ∈ m.properties, P p.schema) ∧
        (∀ t ∈ m.telemetry, P t.schema) ∧ (∀ c ∈ m.commands, ∀ p ∈ payloads c, P p.schema) ∧
        ∀ e ∈ m.events, ∀ s ∈ e.schema, P s := by
  simp only [schemaRefs, List.forall_mem_append, List.forall_mem_flatMap, List.forall_mem_map,
    Option.mem_toList, Option.mem_def, and_assoc]

/-- What a description holds around its schemas is at most five brackets, those around a
field of a declared schema, and 41 object schemas open at most 122. -/
theorem staysBelow {m : Model} (h : ∀ s ∈ m.schemaRefs, s.nesting ≤ 41) :
    record.codec.StaysBelow 128 m := by
  have hcodec : ∀ {s : SchemaRef} {n : ℕ}, s.nesting ≤ 41 → 123 ≤ n →
      SchemaRef.codec.StaysBelow n s :=
    fun hs hn => SchemaRef.codec_staysBelow_of_nesting_le hs hn
  obtain ⟨hschemas, hproperties, htelemetry, hcommands, hevents⟩ := forall_mem_schemaRefs.1 h
  refine Record.staysBelow (n := 127) (fun _ => rfl) ?_
  exact ⟨required_staysBelow _ (string_staysBelow _), required_staysBelow _ (string_staysBelow _),
    required_staysBelow _ (string_staysBelow _), required_staysBelow _ (string_staysBelow _),
    required_staysBelow _ (string_staysBelow _), optional_string_staysBelow _ _,
    Field.list_staysBelow _ fun s hs => ObjectSchema.staysBelow (n := 123)
      fun f hf => hcodec (hschemas s hs f hf) (by decide),
    Field.list_staysBelow _ fun p hp => Property.staysBelow (n := 125)
      (hcodec (hproperties p hp) (by decide)),
    Field.list_staysBelow _ fun t ht => Telemetry.staysBelow (n := 125)
      (hcodec (htelemetry t ht) (by decide)),
    Field.list_staysBelow _ fun c hc => Command.staysBelow (n := 124)
      fun p hp => hcodec (hcommands c hc p hp) (by decide),
    Field.list_staysBelow _ fun e he => Event.staysBelow (n := 125)
      fun s hs => hcodec (hevents e he s hs) (by decide),
    Field.list_staysBelow _ fun r _ => r.staysBelow,
    optional_staysBelow _ fun m _ => m.staysBelow, optional_staysBelow _ fun p _ => p.staysBelow,
    Field.list_staysBelow _ fun r _ => r.staysBelow,
    Field.list_staysBelow _ fun g _ => g.staysBelow,
    Field.list_staysBelow _ fun a _ => a.staysBelow, trivial⟩

theorem height_write_le {m : Model} (h : record.read.Gives depthLimit m)
    (hnesting : ∀ s ∈ m.schemaRefs, s.nesting ≤ 41) : (record.write m).height ≤ depthLimit := by
  have hheight := staysBelow hnesting depthLimit h
  rw [depthLimit] at hheight ⊢
  exact Nat.le_of_lt_succ hheight

end Model

/-! ### How high a description is at least -/

theorem ObjectSchema.height_lt_write {s : ObjectSchema} {f : SchemaField} (hf : f ∈ s.fields) :
    (SchemaRef.codec.write f.schema).height < (ObjectSchema.record.write s).height := by
  have hfield : (SchemaRef.codec.write f.schema).height <
      ((SchemaField.record SchemaRef.codec).write f).height :=
    Record.height_lt_write (by simp [SchemaField.record, Slots.writes_cons])
  have hlist := Codec.height_lt_list (c := (SchemaField.record SchemaRef.codec).codec) hf
  have hobject : ((SchemaField.record SchemaRef.codec).codec.list.write s.fields).height <
      (ObjectSchema.record.write s).height :=
    Record.height_lt_write (by simp [record, recordOf, Slots.writes_cons])
  exact lt_trans hfield (lt_trans hlist hobject)

theorem Property.height_lt_write (p : Property) :
    (SchemaRef.codec.write p.schema).height < (Property.record.write p).height :=
  Record.height_lt_write (by simp [record, Slots.writes_cons])

theorem Telemetry.height_lt_write (t : Telemetry) :
    (SchemaRef.codec.write t.schema).height < (Telemetry.record.write t).height :=
  Record.height_lt_write (by simp [record, Slots.writes_cons])

theorem Command.height_lt_write {c : Command} {p : CommandPayload} (hp : p ∈ Model.payloads c) :
    (SchemaRef.codec.write p.schema).height < (Command.record.write c).height := by
  have hpayload : (SchemaRef.codec.write p.schema).height <
      (CommandPayload.record.write p).height :=
    Record.height_lt_write (by simp [CommandPayload.record, Slots.writes_cons])
  have hcommand : (CommandPayload.record.write p).height < (Command.record.write c).height := by
    refine Record.height_lt_write ?_
    rcases List.mem_append.1 hp with hrequest | hresponse
    · simp [record, Slots.writes_cons, Option.mem_toList.1 hrequest, Record.codec]
    · simp [record, Slots.writes_cons, Option.mem_toList.1 hresponse, Record.codec]
  exact lt_trans hpayload hcommand

theorem Event.height_lt_write {e : Event} {s : SchemaRef} (hs : s ∈ e.schema) :
    (SchemaRef.codec.write s).height < (Event.record.write e).height :=
  Record.height_lt_write (by simp [record, Slots.writes_cons, Option.mem_def.1 hs])

namespace Model

/-- An item of one of the lists of a description stands inside of two brackets. -/
theorem height_add_le_write_of_mem {α : Type} {m : Model} {c : Codec α} {as : List α} {a : α}
    {k : ℕ} (ha : a ∈ as) (hk : k < (c.write a).height)
    (h : Slots.Writes record.fields (record.parts m) (c.list.write as)) :
    k + 3 ≤ (record.write m).height := by
  have hitem := Codec.height_lt_list (c := c) ha
  have hlist := Record.height_lt_write h
  omega

/-- Every schema of a description is written inside of three brackets. -/
theorem height_add_le_write (m : Model) :
    ∀ s ∈ m.schemaRefs, (SchemaRef.codec.write s).height + 3 ≤ (record.write m).height := by
  refine forall_mem_schemaRefs.2 ⟨fun s hs f hf => ?_, fun p hp => ?_, fun t ht => ?_,
    fun c hc p hp => ?_, fun e he s hs => ?_⟩
  · exact height_add_le_write_of_mem (c := ObjectSchema.record.codec) hs
      (ObjectSchema.height_lt_write hf)
      (by simp [record, Slots.writes_cons, Codec.list, List.ne_nil_of_mem hs])
  · exact height_add_le_write_of_mem (c := Property.record.codec) hp p.height_lt_write
      (by simp [record, Slots.writes_cons, Codec.list, List.ne_nil_of_mem hp])
  · exact height_add_le_write_of_mem (c := Telemetry.record.codec) ht t.height_lt_write
      (by simp [record, Slots.writes_cons, Codec.list, List.ne_nil_of_mem ht])
  · exact height_add_le_write_of_mem (c := Command.record.codec) hc (Command.height_lt_write hp)
      (by simp [record, Slots.writes_cons, Codec.list, List.ne_nil_of_mem hc])
  · exact height_add_le_write_of_mem (c := Event.record.codec) he (Event.height_lt_write hs)
      (by simp [record, Slots.writes_cons, Codec.list, List.ne_nil_of_mem he])

/-- A schema in which 42 object schemas are nested opens at least 125 brackets, and three more
stand around it. -/
theorem limit_lt_height_write {m : Model} {s : SchemaRef} (hs : s ∈ m.schemaRefs)
    (h : 41 < s.nesting) : depthLimit < (record.write m).height := by
  have hschema := s.nesting_le_codec_write
  have hmodel := m.height_add_le_write s hs
  rw [depthLimit]
  omega

end Model

end DeviceTwin
