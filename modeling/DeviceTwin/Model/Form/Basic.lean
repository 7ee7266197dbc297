import DeviceTwin.Model.Basic
import DeviceTwin.Model.Form.Contents
import DeviceTwin.Model.Form.Machine

/-!
# The written form of descriptions

`Model.ofText` reads a description from a JSON text and `Model.toText` writes one
in one of the two layouts.
-/

namespace DeviceTwin

open DeviceTwin.Json

def Physics.record : Record Physics where
  title := "struct Physics"
  fields :=
    [.required "type" .string,
      ⟨"parameters", Text.Table Number.Double, some .empty, Codec.doubles.read,
        fun t => if t.isEmpty then none else some (Codec.doubles.write t)⟩,
      .list "equations" .string]
  build := fun (kind, parameters, equations, ()) => ⟨kind, parameters, equations⟩
  parts p := (p.kind, p.parameters, p.equations, ())

def Rule.record : Record Rule where
  title := "struct Rule"
  fields :=
    [.required "name" .string, .required "condition" .string,
      .withDefault "action" .nothing Action.record.codec, .optional "priority" .integer32]
  build := fun (name, condition, action, priority, ()) => ⟨name, condition, action, priority⟩
  parts r := (r.name, r.condition, r.action, r.priority, ())

def Goal.record : Record Goal where
  title := "struct Goal"
  fields :=
    [.required "name" .string, .optional "description" .string, .optional "metric" .string,
      .optional "target" .free]
  build := fun (name, description, metric, target, ()) => ⟨name, description, metric, target⟩
  parts g := (g.name, g.description, g.metric, g.target, ())

def AiModel.record : Record AiModel where
  title := "struct AiModel"
  fields :=
    [.required "name" .string, .required "type" .string, .list "inputs" .string,
      .list "outputs" .string, .optional "endpoint" .string]
  build := fun (name, kind, inputs, outputs, endpoint, ()) =>
    ⟨name, kind, inputs, outputs, endpoint⟩
  parts m := (m.name, m.kind, m.inputs, m.outputs, m.endpoint, ())

namespace Model

def record : Record Model where
  title := "struct Model"
  fields :=
    [.required "@context" .string, .required "@id" .string, .required "@type" .string,
      .required "displayName" .string, .required "description" .string,
      .optional "versionInfo" .string, .list "schemas" ObjectSchema.record.codec,
      .list "properties" Property.record.codec, .list "telemetry" Telemetry.record.codec,
      .list "commands" Command.record.codec, .list "events" Event.record.codec,
      .list "relationships" Relationship.record.codec,
      .optional "stateMachine" StateMachine.record.codec,
      .optional "physics" Physics.record.codec, .list "rules" Rule.record.codec,
      .list "goals" Goal.record.codec, .list "aiModels" AiModel.record.codec]
  build := fun (context, id, kind, displayName, description, versionInfo, schemas, properties,
      telemetry, commands, events, relationships, stateMachine, physics, rules, goals,
      aiModels, ()) =>
    ⟨context, id, kind, displayName, description, versionInfo, schemas, properties, telemetry,
      commands, events, relationships, stateMachine, physics, rules, goals, aiModels⟩
  parts m :=
    (m.context, m.id, m.kind, m.displayName, m.description, m.versionInfo, m.schemas,
      m.properties, m.telemetry, m.commands, m.events, m.relationships, m.stateMachine,
      m.physics, m.rules, m.goals, m.aiModels, ())

def ofText [RealReader] (text : String) : Except Fault Model :=
  Reader.readText record.read text

def toText (layout : Layout) (m : Model) : String :=
  (record.write m).toText layout

end Model

end DeviceTwin
