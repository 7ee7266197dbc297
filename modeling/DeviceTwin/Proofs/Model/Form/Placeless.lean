import DeviceTwin.Model.Form.Basic
import DeviceTwin.Proofs.Json.Placeless

/-!
# Descriptions do not depend on places

A description is read through records, and each of them gives the same value wherever its
parts stand in the text. The induction for schemas is on the number of object schemas around
each other.
-/

namespace DeviceTwin

open DeviceTwin.Json

/-! ### Schemas -/

namespace SchemaRef

/-- What a value that has been read through is as a schema: a name if it is a string, and else
an object schema. -/
theorem ofWhole_eq_ok_iff {object : Reader ObjectSchema} {d : Document} {s : SchemaRef} :
    ofWhole object d = .ok s ↔
      (∃ name, Reader.string .buffered d = .ok name ∧ s = named name) ∨
        (∀ name, Reader.string .buffered d ≠ .ok name) ∧
          ∃ schema, object .buffered d = .ok schema ∧ s = .object schema := by
  rw [ofWhole]
  cases hname : Reader.string .buffered d with
  | ok name => simp [eq_comm]
  | error _ =>
      cases hobject : object .buffered d with
      | ok schema => simp [eq_comm]
      | error _ => simp

theorem read_codecWithin_iff {n : ℕ} {c : Context} {d : Document} {s : SchemaRef} :
    (codecWithin (n + 1)).read c d = .ok s ↔
      (c.source = .text → d.check c = .ok ()) ∧
        ofWhole (ObjectSchema.recordOf (codecWithin n)).read d = .ok s := by
  simp only [codecWithin]
  split_ifs with hsource
  · rw [bind_eq_ok_iff]
    exact ⟨fun ⟨⟨⟩, hcheck, h⟩ => ⟨fun _ => hcheck, h⟩,
      fun ⟨hcheck, h⟩ => ⟨(), hcheck hsource, h⟩⟩
  · exact ⟨fun h => ⟨fun htext => absurd htext hsource, h⟩, And.right⟩

theorem ofWhole_bare {object : Reader ObjectSchema} (h : object.Placeless) (d : Document)
    (s : SchemaRef) : ofWhole object d.bare = .ok s ↔ ofWhole object d = .ok s := by
  simp only [ofWhole_eq_ok_iff, Ne, Reader.string_placeless .buffered d, h .buffered d]

end SchemaRef

theorem SchemaField.record_placeless {schema : Codec SchemaRef} (h : schema.read.Placeless) :
    (SchemaField.record schema).read.Placeless :=
  Record.placeless ⟨Reader.string_placeless, h⟩

theorem ObjectSchema.recordOf_placeless {schema : Codec SchemaRef} (h : schema.read.Placeless) :
    (ObjectSchema.recordOf schema).read.Placeless :=
  Record.placeless ⟨Reader.string_placeless.optional, Reader.string_placeless,
    Reader.string_placeless.optional, (SchemaField.record_placeless h).list⟩

namespace SchemaRef

theorem codecWithin_placeless : ∀ n : ℕ, (codecWithin n).read.Placeless
  | 0 => fun _ _ _ => ⟨nofun, nofun⟩
  | n + 1 => by
      intro c d s
      rw [read_codecWithin_iff, read_codecWithin_iff, d.check_bare,
        ofWhole_bare (ObjectSchema.recordOf_placeless (codecWithin_placeless n))]

theorem codec_placeless : codec.read.Placeless := by
  intro c d s
  change (codecWithin (d.bare.height + 1)).read c d.bare = .ok s ↔
    (codecWithin (d.height + 1)).read c d = .ok s
  rw [d.height_bare]
  exact codecWithin_placeless (d.height + 1) c d s

end SchemaRef

theorem ObjectSchema.record_placeless : ObjectSchema.record.read.Placeless :=
  ObjectSchema.recordOf_placeless SchemaRef.codec_placeless

/-! ### Parts of a model -/

open Reader

theorem Property.record_placeless : Property.record.read.Placeless :=
  Record.placeless ⟨string_placeless, SchemaRef.codec_placeless, string_placeless.optional,
    string_placeless.optional, string_placeless.optional, boolean_placeless⟩

theorem Telemetry.record_placeless : Telemetry.record.read.Placeless :=
  Record.placeless ⟨string_placeless, SchemaRef.codec_placeless, string_placeless.optional,
    string_placeless.optional, string_placeless.optional⟩

theorem CommandPayload.record_placeless : CommandPayload.record.read.Placeless :=
  Record.placeless ⟨string_placeless, SchemaRef.codec_placeless⟩

theorem CompletionEvents.record_placeless : CompletionEvents.record.read.Placeless :=
  Record.placeless ⟨string_placeless.optional, string_placeless.optional⟩

theorem Command.record_placeless : Command.record.read.Placeless :=
  Record.placeless ⟨string_placeless, string_placeless.optional, string_placeless.optional,
    CommandPayload.record_placeless.optional, CommandPayload.record_placeless.optional,
    string_placeless.optional, (Choice.read_placeless _).optional,
    CompletionEvents.record_placeless.optional⟩

theorem Event.record_placeless : Event.record.read.Placeless :=
  Record.placeless ⟨string_placeless, string_placeless.optional, string_placeless.optional,
    SchemaRef.codec_placeless.optional⟩

theorem Relationship.record_placeless : Relationship.record.read.Placeless :=
  Record.placeless ⟨string_placeless, string_placeless.optional,
    Codec.natural32_placeless.optional, Codec.natural32_placeless.optional, boolean_placeless⟩

theorem State.record_placeless : State.record.read.Placeless :=
  Record.placeless ⟨string_placeless, string_placeless.optional, string_placeless.optional⟩

theorem PropertyUpdate.record_placeless : PropertyUpdate.record.read.Placeless :=
  Record.placeless ⟨string_placeless, free_placeless⟩

theorem Action.record_placeless : Action.record.read.Placeless :=
  Record.placeless ⟨string_placeless.optional, PropertyUpdate.record_placeless.optional⟩

theorem Transition.record_placeless : Transition.record.read.Placeless :=
  Record.placeless ⟨string_placeless, string_placeless, Choice.read_placeless _,
    Action.record_placeless.optional⟩

theorem StateMachine.record_placeless : StateMachine.record.read.Placeless :=
  Record.placeless ⟨string_placeless, State.record_placeless.list,
    Transition.record_placeless.list⟩

theorem Physics.record_placeless : Physics.record.read.Placeless :=
  Record.placeless ⟨string_placeless, double_placeless.table, string_placeless.list⟩

theorem Rule.record_placeless : Rule.record.read.Placeless :=
  Record.placeless ⟨string_placeless, string_placeless, Action.record_placeless,
    Codec.integer32_placeless.optional⟩

theorem Goal.record_placeless : Goal.record.read.Placeless :=
  Record.placeless ⟨string_placeless, string_placeless.optional, string_placeless.optional,
    free_placeless.optional⟩

theorem AiModel.record_placeless : AiModel.record.read.Placeless :=
  Record.placeless ⟨string_placeless, string_placeless, string_placeless.list,
    string_placeless.list, string_placeless.optional⟩

theorem Model.record_placeless : Model.record.read.Placeless :=
  Record.placeless ⟨string_placeless, string_placeless, string_placeless, string_placeless,
    string_placeless, string_placeless.optional, ObjectSchema.record_placeless.list,
    Property.record_placeless.list, Telemetry.record_placeless.list,
    Command.record_placeless.list, Event.record_placeless.list,
    Relationship.record_placeless.list, StateMachine.record_placeless.optional,
    Physics.record_placeless.optional, Rule.record_placeless.list, Goal.record_placeless.list,
    AiModel.record_placeless.list⟩

end DeviceTwin
