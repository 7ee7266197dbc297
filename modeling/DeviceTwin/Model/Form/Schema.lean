import DeviceTwin.Json.Record
import DeviceTwin.Model.Schema

/-!
# The written form of schemas

A schema is a string or an object schema, and the form does not say which: the
whole value is read first and then tried as the one and as the other. What is
wrong with a value that is neither is therefore not told.

Object schemas hold schemas again. The codec for schemas nested at most `n` deep
is built from the one for `n - 1`, and `SchemaRef.codec` takes the height of the
value at hand.
-/

namespace DeviceTwin

open DeviceTwin.Json

def SchemaField.record (schema : Codec SchemaRef) : Record SchemaField where
  title := "struct SchemaField"
  fields := [.required "name" .string, .required "schema" schema]
  build := fun (name, schema, ()) => ⟨name, schema⟩
  parts f := (f.name, f.schema, ())

def ObjectSchema.recordOf (schema : Codec SchemaRef) : Record ObjectSchema where
  title := "struct ObjectSchema"
  fields :=
    [.optional "@id" .string, .withDefault "@type" defaultKind .string,
      .optional "displayName" .string,
      .withDefault "fields" [] (SchemaField.record schema).codec.list]
  build := fun (id, kind, displayName, fields, ()) => ⟨id, kind, displayName, fields⟩
  parts s := (s.id, s.kind, s.displayName, s.fields, ())

namespace SchemaRef

/-- Tries a value that has been read through as a name and as an object schema. -/
def ofWhole (object : Reader ObjectSchema) (d : Document) : Except Fault SchemaRef :=
  match Reader.string .buffered d with
  | .ok name => .ok (named name)
  | .error _ =>
    match object .buffered d with
    | .ok schema => .ok (SchemaRef.object schema)
    | .error _ => .error (.unplaced (.noFormFits "SchemaRef"))

/-- Schemas with at most so many object schemas around a name. -/
def codecWithin : Nat → Codec SchemaRef
  | 0 => ⟨fun _ _ => .error (.unplaced (.noFormFits "SchemaRef")), fun _ => .null⟩
  | n + 1 =>
    let object := ObjectSchema.recordOf (codecWithin n)
    { read := fun c d => do
        if c.source = .text then d.check c
        ofWhole object.read d
      write := fun
        | named name => .text name
        | .object schema => object.write schema }

def codec : Codec SchemaRef where
  read c d := (codecWithin (d.height + 1)).read c d
  write s := (codecWithin s.height).write s

end SchemaRef

def ObjectSchema.record : Record ObjectSchema :=
  ObjectSchema.recordOf SchemaRef.codec

end DeviceTwin
