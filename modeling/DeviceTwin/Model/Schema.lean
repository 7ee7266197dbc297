/-!
# Payload schemas

A payload is described by the name of a schema or by an object schema written out
in place, whose fields are described in the same way. Schemas are compared as
values (`SchemaRef.same_iff`), and `SchemaRef.names` lists the names that one of
them refers to. `SchemaRef.addNames` does so for several of them in turn, with the
names of all in one list.
-/

namespace DeviceTwin

mutual

inductive SchemaRef where
  | named (name : String)
  | object (schema : ObjectSchema)

structure ObjectSchema where
  id : Option String
  kind : String
  displayName : Option String
  fields : List SchemaField

structure SchemaField where
  name : String
  schema : SchemaRef

end

namespace SchemaRef

instance : Inhabited SchemaRef := ⟨named ""⟩

mutual

def same : SchemaRef → SchemaRef → Bool
  | named a, named b => a == b
  | object a, object b => sameObject a b
  | _, _ => false

def sameObject : ObjectSchema → ObjectSchema → Bool
  | ⟨i, k, d, fs⟩, ⟨j, l, e, gs⟩ => i == j && k == l && d == e && sameFields fs gs

def sameField : SchemaField → SchemaField → Bool
  | ⟨n, s⟩, ⟨m, t⟩ => n == m && same s t

def sameFields : List SchemaField → List SchemaField → Bool
  | [], [] => true
  | f :: fs, g :: gs => sameField f g && sameFields fs gs
  | _, _ => false

end

mutual

theorem same_iff : ∀ a b : SchemaRef, same a b = true ↔ a = b
  | named _, b => by cases b <;> simp [same]
  | object a, b => by cases b <;> simp [same, sameObject_iff a]

theorem sameObject_iff : ∀ a b : ObjectSchema, sameObject a b = true ↔ a = b
  | ⟨_, _, _, fs⟩, ⟨_, _, _, _⟩ => by simp [sameObject, sameFields_iff fs, and_assoc]

theorem sameField_iff : ∀ a b : SchemaField, sameField a b = true ↔ a = b
  | ⟨_, s⟩, ⟨_, _⟩ => by simp [sameField, same_iff s]

theorem sameFields_iff : ∀ a b : List SchemaField, sameFields a b = true ↔ a = b
  | [], b => by cases b <;> simp [sameFields]
  | f :: fs, b => by
    cases b with
    | nil => simp [sameFields]
    | cons g gs => simp [sameFields, sameField_iff f g, sameFields_iff fs gs]

end

instance : DecidableEq SchemaRef := fun a b => decidable_of_iff _ (same_iff a b)

end SchemaRef

instance : DecidableEq ObjectSchema := fun a b =>
  decidable_of_iff _ (SchemaRef.sameObject_iff a b)

instance : DecidableEq SchemaField := fun a b =>
  decidable_of_iff _ (SchemaRef.sameField_iff a b)

namespace SchemaRef

mutual

/-- The names that a schema refers to, from left to right, once for each place. -/
def names : SchemaRef → List String
  | named name => [name]
  | object schema => objectNames schema

def objectNames : ObjectSchema → List String
  | ⟨_, _, _, fields⟩ => fieldsNames fields

def fieldsNames : List SchemaField → List String
  | [] => []
  | ⟨_, schema⟩ :: fields => names schema ++ fieldsNames fields

end

mutual

/-- Collects the names that a schema refers to behind those collected before. -/
def addNames : SchemaRef → List String → List String
  | named name, out => out ++ [name]
  | object schema, out => addObjectNames schema out

def addObjectNames : ObjectSchema → List String → List String
  | ⟨_, _, _, fields⟩, out => addFieldsNames fields out

def addFieldsNames : List SchemaField → List String → List String
  | [], out => out
  | ⟨_, schema⟩ :: fields, out => addFieldsNames fields (addNames schema out)

end

mutual

/-- One more than the number of object schemas nested in each other. -/
def height : SchemaRef → Nat
  | named _ => 1
  | object schema => objectHeight schema + 1

def objectHeight : ObjectSchema → Nat
  | ⟨_, _, _, fields⟩ => fieldsHeight fields

def fieldsHeight : List SchemaField → Nat
  | [] => 0
  | ⟨_, schema⟩ :: fields => max (height schema) (fieldsHeight fields)

end

end SchemaRef

namespace ObjectSchema

/-- The kind that a schema has unless it says otherwise. -/
def defaultKind : String := "Object"

def new (id : String) (fields : List SchemaField) : ObjectSchema :=
  ⟨some id, defaultKind, none, fields⟩

/-- The names that the fields of a schema refer to. -/
def names (s : ObjectSchema) : List String :=
  SchemaRef.objectNames s

end ObjectSchema

end DeviceTwin
