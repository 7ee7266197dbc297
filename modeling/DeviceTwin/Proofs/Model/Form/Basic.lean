import DeviceTwin.Model.Form.Basic
import DeviceTwin.Proofs.Model.Form.Schema
import DeviceTwin.Settings.Basic

/-!
# Descriptions are read back

Each record of a description is read back from what is written of it, and so is the whole
description from its text in either layout. Two things limit this. A goal whose target is
the value null is written with `null`, which is read as no target at all; and a text may
open no more brackets at once than its reader allows.
-/

namespace DeviceTwin

open DeviceTwin.Json DeviceTwin.Json.Field DeviceTwin.Json.Codec

/-! ### Contents -/

theorem Property.restores (p : Property) : Property.record.codec.Restores p := by
  refine Record.restores (by decide) ?_
  exact ⟨required_restores _ (string_restores _), required_restores _ (SchemaRef.codec_restores _),
    optional_string_restores _ _, optional_string_restores _ _, optional_string_restores _ _,
    withDefault_restores _ _ (boolean_restores _), trivial⟩

theorem Telemetry.restores (t : Telemetry) : Telemetry.record.codec.Restores t := by
  refine Record.restores (by decide) ?_
  exact ⟨required_restores _ (string_restores _), required_restores _ (SchemaRef.codec_restores _),
    optional_string_restores _ _, optional_string_restores _ _, optional_string_restores _ _,
    trivial⟩

theorem ExecutionMode.codec_restores (m : ExecutionMode) : ExecutionMode.codec.Restores m := by
  cases m with
  | sync =>
      exact ⟨Choice.reads_nothing (by rfl), Reader.refuses_of_height_eq_zero rfl, trivial⟩
  | async =>
      exact ⟨Choice.reads_nothing (by rfl), Reader.refuses_of_height_eq_zero rfl, trivial⟩

theorem CommandPayload.restores (p : CommandPayload) : CommandPayload.record.codec.Restores p := by
  refine Record.restores (by decide) ?_
  exact ⟨required_restores _ (string_restores _), required_restores _ (SchemaRef.codec_restores _),
    trivial⟩

theorem CompletionEvents.restores (e : CompletionEvents) :
    CompletionEvents.record.codec.Restores e := by
  refine Record.restores (by decide) ?_
  exact ⟨optional_string_restores _ _, optional_string_restores _ _, trivial⟩

theorem Command.restores (c : Command) : Command.record.codec.Restores c := by
  refine Record.restores (by decide) ?_
  refine ⟨required_restores _ (string_restores _), optional_string_restores _ _,
    optional_string_restores _ _, optional_record_restores _ fun p _ => p.restores,
    optional_record_restores _ fun p _ => p.restores, optional_string_restores _ _,
    optional_restores _ (fun m _ => m.codec_restores) (fun _ _ => nofun),
    optional_record_restores _ fun e _ => e.restores, trivial⟩

theorem Event.restores (e : Event) : Event.record.codec.Restores e := by
  refine Record.restores (by decide) ?_
  exact ⟨required_restores _ (string_restores _), optional_string_restores _ _,
    optional_string_restores _ _,
    optional_restores _ (fun s _ => SchemaRef.codec_restores s)
      (fun s _ => SchemaRef.codec_write_ne_null s), trivial⟩

theorem Relationship.restores (r : Relationship) : Relationship.record.codec.Restores r := by
  refine Record.restores (by decide) ?_
  exact ⟨required_restores _ (string_restores _), optional_string_restores _ _,
    optional_restores _ (fun n _ => natural32_restores n) (fun _ _ => nofun),
    optional_restores _ (fun n _ => natural32_restores n) (fun _ _ => nofun),
    withDefault_restores _ _ (boolean_restores _), trivial⟩

/-! ### State machines -/

theorem State.restores (s : State) : State.record.codec.Restores s := by
  refine Record.restores (by decide) ?_
  exact ⟨required_restores _ (string_restores _), optional_string_restores _ _,
    optional_string_restores _ _, trivial⟩

theorem Trigger.codec_restores (t : Trigger) : Trigger.codec.Restores t := by
  cases t with
  | command name =>
      exact ⟨Choice.reads_text (f := Trigger.command) (by rfl) name,
        choice.refuses_text "command" name, trivial, trivial⟩
  | event name =>
      exact ⟨Choice.reads_text (f := Trigger.event) (by rfl) name,
        choice.refuses_text "event" name, trivial, trivial⟩
  | condition expression =>
      exact ⟨Choice.reads_text (f := Trigger.condition) (by rfl) expression,
        choice.refuses_text "condition" expression, trivial, trivial⟩

theorem PropertyUpdate.restores (u : PropertyUpdate) : PropertyUpdate.record.codec.Restores u := by
  refine Record.restores (by decide) ?_
  exact ⟨required_restores _ (string_restores _), required_restores _ (free_restores _), trivial⟩

theorem Action.restores (a : Action) : Action.record.codec.Restores a := by
  refine Record.restores (by decide) ?_
  exact ⟨optional_string_restores _ _, optional_record_restores _ fun u _ => u.restores, trivial⟩

theorem Transition.restores (t : Transition) : Transition.record.codec.Restores t := by
  refine Record.restores (by decide) ?_
  exact ⟨required_restores _ (string_restores _), required_restores _ (string_restores _),
    required_restores _ (Trigger.codec_restores _),
    optional_record_restores _ fun a _ => a.restores, trivial⟩

theorem StateMachine.restores (m : StateMachine) : StateMachine.record.codec.Restores m := by
  refine Record.restores (by decide) ?_
  exact ⟨required_restores _ (string_restores _),
    withDefault_restores _ _ (list_restores fun s _ => s.restores),
    withDefault_restores _ _ (list_restores fun t _ => t.restores), trivial⟩

/-! ### Physics, rules, goals and learned models -/

/-- The parameters of physics are left out when there are none. -/
theorem Physics.parameters_restores (t : Text.Table Number.Double) :
    Field.Restores ⟨"parameters", Text.Table Number.Double, some .empty, Codec.doubles.read,
      fun t => if t.isEmpty then none else some (Codec.doubles.write t)⟩ t := by
  refine ⟨fun j hj => ?_, fun hnone => ?_⟩
  · dsimp only at hj
    split_ifs at hj
    obtain rfl := Option.some.inj hj
    exact ⟨(doubles_restores t).reads, (doubles_restores t).refuses,
      (doubles_restores t).bounded⟩
  · dsimp only at hnone
    split_ifs at hnone with hempty
    obtain ⟨entries, rising⟩ := t
    obtain rfl : entries = [] := List.isEmpty_iff.1 hempty
    rfl

theorem Physics.restores (p : Physics) : Physics.record.codec.Restores p := by
  refine Record.restores (by decide) ?_
  exact ⟨required_restores _ (string_restores _), parameters_restores _,
    list_restores _ fun s _ => string_restores s, trivial⟩

theorem Rule.restores (r : Rule) : Rule.record.codec.Restores r := by
  refine Record.restores (by decide) ?_
  exact ⟨required_restores _ (string_restores _), required_restores _ (string_restores _),
    withDefault_restores _ _ (Action.restores _),
    optional_restores _ (fun n _ => integer32_restores n) (fun _ _ => nofun), trivial⟩

theorem FreeValue.json_ne_null {v : FreeValue} (h : v ≠ .null) : v.json ≠ .null := by
  obtain ⟨j, hj⟩ := v
  rintro rfl
  exact h rfl

theorem Goal.restores {g : Goal} (h : g.target ≠ some .null) : Goal.record.codec.Restores g := by
  refine Record.restores (by decide) ?_
  refine ⟨required_restores _ (string_restores _), optional_string_restores _ _,
    optional_string_restores _ _,
    optional_restores _ (fun v _ => free_restores v) (fun v hv => ?_), trivial⟩
  refine FreeValue.json_ne_null ?_
  rintro rfl
  exact h hv

theorem AiModel.restores (m : AiModel) : AiModel.record.codec.Restores m := by
  refine Record.restores (by decide) ?_
  exact ⟨required_restores _ (string_restores _), required_restores _ (string_restores _),
    list_restores _ fun s _ => string_restores s, list_restores _ fun s _ => string_restores s,
    optional_string_restores _ _, trivial⟩

/-! ### Whole descriptions -/

namespace Model

theorem restores {m : Model} (h : ∀ g ∈ m.goals, g.target ≠ some .null) :
    record.codec.Restores m := by
  refine Record.restores (by decide) ?_
  exact ⟨required_restores _ (string_restores _), required_restores _ (string_restores _),
    required_restores _ (string_restores _), required_restores _ (string_restores _),
    required_restores _ (string_restores _), optional_string_restores _ _,
    list_restores _ fun s _ => s.restores, list_restores _ fun p _ => p.restores,
    list_restores _ fun t _ => t.restores, list_restores _ fun c _ => c.restores,
    list_restores _ fun e _ => e.restores, list_restores _ fun r _ => r.restores,
    optional_record_restores _ fun m _ => m.restores,
    optional_record_restores _ fun p _ => p.restores,
    list_restores _ fun r _ => r.restores, list_restores _ fun g hg => Goal.restores (h g hg),
    list_restores _ fun a _ => a.restores, trivial⟩

end Model

theorem OutputFormat.layout_isPlain (format : OutputFormat) : format.layout.IsPlain := by
  cases format with
  | pretty => exact Layout.pretty_isPlain
  | compact => exact Layout.compact_isPlain

namespace Model

theorem wide_write [RealReader] {m : Model} (hgoals : ∀ g ∈ m.goals, g.target ≠ some .null)
    (hreals : ∀ x ∈ (record.write m).reals, RealReader.Keeps x) : (record.write m).Wide :=
  Json.wide_iff.2 ⟨(restores hgoals).bounded, hreals⟩

/-- A description is read back from its text in either layout, if its reals come back from
their texts. A goal with the target null would come back without a target, and a text that
opens more brackets at once than the limit would be refused. -/
theorem ofText_toText [RealReader] (format : OutputFormat) (m : Model)
    (hreals : ∀ x ∈ (record.write m).reals, RealReader.Keeps x)
    (hgoals : ∀ g ∈ m.goals, g.target ≠ some .null) (hdepth : (record.write m).height ≤ 127) :
    ofText (m.toText format.layout) = .ok m :=
  (restores hgoals).reads.readText format.layout_isPlain (wide_write hgoals hreals) hdepth

/-- A heater with something in every part of its description. -/
def heater : Model :=
  (Model.new "dtmi:demo:heater;1" "Heater" "Heats a \"room\"").addAll
    [.schemas [.new "dtmi:demo:range;1" [⟨"low", .named "double"⟩]],
      .properties [⟨"range", .object (.new "dtmi:demo:range;1" [⟨"low", .named "double"⟩]), none,
        some "from\tto\n", none, true⟩],
      .telemetry [.new "heat" "double"],
      .commands [.withCompletionEvents (some "warm") none (.new "start")],
      .events [.new "warm"],
      .relationships [⟨"room", some "dtmi:demo:room;1", some 0, some 1, false⟩],
      .stateMachine (((StateMachine.new "off").withStates ["off", "on"]).withTransition
        ⟨"off", "on", .command "start", some (.emit "warm")⟩),
      .physics ((Physics.new "thermal").withParameter "mass"
        ⟨true, 4607182418800017409, by decide⟩),
      .rules [⟨"limit", "heat > 30", .update "range" .null, some (-1)⟩],
      .goals [⟨"save", none, some "energy",
        some ⟨.list [.integer 3, .null], ⟨by decide, by decide⟩, trivial, trivial⟩⟩],
      .aiModels [.new "forecast" "onnx"]]

open scoped Concrete

theorem ofText_toText_heater :
    (∀ x ∈ (record.write heater).reals, RealReader.Keeps x) ∧
      (∀ g ∈ heater.goals, g.target ≠ some .null) ∧ (record.write heater).height ≤ 127 ∧
        ofText (heater.toText OutputFormat.pretty.layout) = .ok heater := by
  have hreals : ∀ x ∈ (record.write heater).reals, RealReader.Keeps x :=
    fun x _ => Concrete.nearestReal_readsBack x
  have hgoals : ∀ g ∈ heater.goals, g.target ≠ some .null := by decide
  have hdepth : (record.write heater).height ≤ 127 := by decide
  exact ⟨hreals, hgoals, hdepth, ofText_toText .pretty heater hreals hgoals hdepth⟩

end Model

end DeviceTwin
