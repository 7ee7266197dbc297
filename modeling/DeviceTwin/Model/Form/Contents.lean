import DeviceTwin.Model.Contents
import DeviceTwin.Model.Form.Schema

/-!
# The written form of the contents
-/

namespace DeviceTwin

open DeviceTwin.Json

def Property.record : Record Property where
  title := "struct Property"
  fields :=
    [.required "name" .string, .required "schema" SchemaRef.codec,
      .optional "displayName" .string, .optional "description" .string,
      .optional "unit" .string, .withDefault "writable" false .boolean]
  build := fun (name, schema, displayName, description, unit, writable, ()) =>
    ⟨name, schema, displayName, description, unit, writable⟩
  parts p := (p.name, p.schema, p.displayName, p.description, p.unit, p.writable, ())

def Telemetry.record : Record Telemetry where
  title := "struct Telemetry"
  fields :=
    [.required "name" .string, .required "schema" SchemaRef.codec,
      .optional "displayName" .string, .optional "description" .string,
      .optional "unit" .string]
  build := fun (name, schema, displayName, description, unit, ()) =>
    ⟨name, schema, displayName, description, unit⟩
  parts t := (t.name, t.schema, t.displayName, t.description, t.unit, ())

namespace ExecutionMode

def choice : Choice ExecutionMode :=
  ⟨[("sync", .nothing sync), ("async", .nothing async)]⟩

def word : ExecutionMode → String
  | sync => "sync"
  | async => "async"

def codec : Codec ExecutionMode := ⟨choice.read, fun m => .text m.word⟩

end ExecutionMode

def CommandPayload.record : Record CommandPayload where
  title := "struct CommandPayload"
  fields := [.required "name" .string, .required "schema" SchemaRef.codec]
  build := fun (name, schema, ()) => ⟨name, schema⟩
  parts p := (p.name, p.schema, ())

def CompletionEvents.record : Record CompletionEvents where
  title := "struct CompletionEvents"
  fields := [.optional "onSuccess" .string, .optional "onFailure" .string]
  build := fun (onSuccess, onFailure, ()) => ⟨onSuccess, onFailure⟩
  parts e := (e.onSuccess, e.onFailure, ())

def Command.record : Record Command where
  title := "struct Command"
  fields :=
    [.required "name" .string, .optional "displayName" .string,
      .optional "description" .string, .optional "request" CommandPayload.record.codec,
      .optional "response" CommandPayload.record.codec, .optional "intent" .string,
      .optional "execution" ExecutionMode.codec,
      .optional "completionEvents" CompletionEvents.record.codec]
  build := fun (name, displayName, description, request, response, intent, execution,
      completionEvents, ()) =>
    ⟨name, displayName, description, request, response, intent, execution, completionEvents⟩
  parts c :=
    (c.name, c.displayName, c.description, c.request, c.response, c.intent, c.execution,
      c.completionEvents, ())

def Event.record : Record Event where
  title := "struct Event"
  fields :=
    [.required "name" .string, .optional "displayName" .string,
      .optional "description" .string, .optional "schema" SchemaRef.codec]
  build := fun (name, displayName, description, schema, ()) =>
    ⟨name, displayName, description, schema⟩
  parts e := (e.name, e.displayName, e.description, e.schema, ())

def Relationship.record : Record Relationship where
  title := "struct Relationship"
  fields :=
    [.required "name" .string, .optional "target" .string,
      .optional "minMultiplicity" .natural32, .optional "maxMultiplicity" .natural32,
      .withDefault "writable" false .boolean]
  build := fun (name, target, minMultiplicity, maxMultiplicity, writable, ()) =>
    ⟨name, target, minMultiplicity, maxMultiplicity, writable⟩
  parts r := (r.name, r.target, r.minMultiplicity, r.maxMultiplicity, r.writable, ())

end DeviceTwin
