import DeviceTwin.Model.Schema

/-!
# The names in a schema

A schema is a tree: the names stand at its leaves, and a schema that is written out in place
branches into its fields. A leaf has an address, the numbers of the fields on the way to it
(`SchemaRef.nameAt?`). `SchemaRef.leaves` lists the leaves by increasing address, which is from
left to right, and the names collected from a schema are those at its leaves, in this order.

The other texts of a schema are not collected: schemas that differ in them alone
(`SchemaRef.Relabels`) have the same names.
-/

namespace DeviceTwin

namespace SchemaRef

/-! ### One list for several schemas -/

mutual

theorem addNames_eq_append :
    ∀ (s : SchemaRef) (out : List String), s.addNames out = out ++ s.names
  | named _, out => by rw [addNames, names]
  | object o, out => by rw [addNames, names, addObjectNames_eq_append o out]

theorem addObjectNames_eq_append :
    ∀ (o : ObjectSchema) (out : List String), addObjectNames o out = out ++ objectNames o
  | ⟨_, _, _, fs⟩, out => by rw [addObjectNames, objectNames, addFieldsNames_eq_append fs out]

theorem addFieldsNames_eq_append :
    ∀ (fs : List SchemaField) (out : List String), addFieldsNames fs out = out ++ fieldsNames fs
  | [], out => by rw [addFieldsNames, fieldsNames, List.append_nil]
  | ⟨_, s⟩ :: fs, out => by
      rw [addFieldsNames, addNames_eq_append s out, addFieldsNames_eq_append fs, fieldsNames,
        List.append_assoc]

end

theorem addNames_nil (s : SchemaRef) : s.addNames [] = s.names := by
  rw [addNames_eq_append, List.nil_append]

theorem fieldsNames_eq_flatMap (fs : List SchemaField) :
    fieldsNames fs = fs.flatMap fun f => f.schema.names := by
  induction fs with
  | nil => rfl
  | cons f fs ih =>
      obtain ⟨_, s⟩ := f
      rw [fieldsNames, ih, List.flatMap_cons]

theorem names_object (o : ObjectSchema) :
    (object o).names = o.fields.flatMap fun f => f.schema.names := by
  obtain ⟨_, _, _, fs⟩ := o
  rw [names, objectNames, fieldsNames_eq_flatMap]

/-! ### Leaves and their addresses -/

/-- The name that stands at an address. The address tells from the outside to the inside which
field of a schema that is written out in place to go on with. -/
def nameAt? : SchemaRef → List Nat → Option String
  | named name, [] => some name
  | named _, _ :: _ => none
  | object _, [] => none
  | object o, i :: p => o.fields[i]?.bind fun f => f.schema.nameAt? p

mutual

/-- The names in a schema with their addresses, from left to right. -/
def leaves : SchemaRef → List (List Nat × String)
  | named name => [([], name)]
  | object schema => objectLeaves schema

def objectLeaves : ObjectSchema → List (List Nat × String)
  | ⟨_, _, _, fields⟩ => fieldsLeaves 0 fields

/-- The names in fields the first of which has the number `k`. -/
def fieldsLeaves (k : Nat) : List SchemaField → List (List Nat × String)
  | [] => []
  | ⟨_, schema⟩ :: fields =>
      (leaves schema).map (fun l => (k :: l.1, l.2)) ++ fieldsLeaves (k + 1) fields

end

mutual

theorem leaves_map_snd : ∀ s : SchemaRef, s.leaves.map Prod.snd = s.names
  | named _ => rfl
  | object o => by rw [leaves, names, objectLeaves_map_snd o]

theorem objectLeaves_map_snd : ∀ o : ObjectSchema, (objectLeaves o).map Prod.snd = objectNames o
  | ⟨_, _, _, fs⟩ => by rw [objectLeaves, objectNames, fieldsLeaves_map_snd 0 fs]

theorem fieldsLeaves_map_snd :
    ∀ (k : Nat) (fs : List SchemaField), (fieldsLeaves k fs).map Prod.snd = fieldsNames fs
  | _, [] => rfl
  | k, ⟨_, s⟩ :: fs => by
      rw [fieldsLeaves, fieldsNames, List.map_append, List.map_map, fieldsLeaves_map_snd (k + 1) fs,
        ← leaves_map_snd s]
      rfl

end

mutual

/-- The leaves are the addresses at which a name stands, each with its name. -/
theorem mem_leaves_iff : ∀ (s : SchemaRef) (p : List Nat) (name : String),
    (p, name) ∈ s.leaves ↔ s.nameAt? p = some name
  | named _, p, name => by cases p <;> simp [leaves, nameAt?, eq_comm]
  | object o, p, name => by rw [leaves, mem_objectLeaves_iff o]

theorem mem_objectLeaves_iff : ∀ (o : ObjectSchema) (p : List Nat) (name : String),
    (p, name) ∈ objectLeaves o ↔ (object o).nameAt? p = some name
  | ⟨_, _, _, fs⟩, [], name => by simp [objectLeaves, mem_fieldsLeaves_iff 0 fs, nameAt?]
  | ⟨_, _, _, fs⟩, i :: p, name => by
      rw [objectLeaves, mem_fieldsLeaves_iff 0 fs, nameAt?, Option.bind_eq_some_iff]
      constructor
      · rintro ⟨j, q, f, hp, hf, hname⟩
        rw [Nat.zero_add] at hp
        obtain ⟨rfl, rfl⟩ := List.cons.inj hp
        exact ⟨f, hf, hname⟩
      · rintro ⟨f, hf, hname⟩
        exact ⟨i, p, f, by rw [Nat.zero_add], hf, hname⟩

/-- An address in fields begins with the number of the field that it goes on with. -/
theorem mem_fieldsLeaves_iff : ∀ (k : Nat) (fs : List SchemaField) (p : List Nat) (name : String),
    (p, name) ∈ fieldsLeaves k fs ↔
      ∃ i q f, p = (k + i) :: q ∧ fs[i]? = some f ∧ f.schema.nameAt? q = some name
  | _, [], _, _ => by simp [fieldsLeaves]
  | k, ⟨_, s⟩ :: fs, p, name => by
      rw [fieldsLeaves, List.mem_append, List.mem_map, mem_fieldsLeaves_iff (k + 1) fs]
      constructor
      · rintro (⟨⟨q, n⟩, hq, ⟨⟩⟩ | ⟨i, q, f, rfl, hf, hname⟩)
        · exact ⟨0, q, _, rfl, rfl, (mem_leaves_iff s q n).1 hq⟩
        · exact ⟨i + 1, q, f, by rw [Nat.add_right_comm, Nat.add_assoc], hf, hname⟩
      · rintro ⟨_ | i, q, f, rfl, hf, hname⟩
        · obtain rfl := Option.some.inj hf
          exact .inl ⟨(q, name), (mem_leaves_iff s q name).2 hname, rfl⟩
        · exact .inr ⟨i, q, f, by rw [Nat.add_right_comm, Nat.add_assoc], hf, hname⟩

end

mutual

/-- From left to right the addresses increase. -/
theorem leaves_pairwise : ∀ s : SchemaRef, s.leaves.Pairwise fun a b => a.1 < b.1
  | named _ => List.pairwise_singleton _ _
  | object o => by
      rw [leaves]
      exact objectLeaves_pairwise o

theorem objectLeaves_pairwise :
    ∀ o : ObjectSchema, (objectLeaves o).Pairwise fun a b => a.1 < b.1
  | ⟨_, _, _, fs⟩ => by
      rw [objectLeaves]
      exact fieldsLeaves_pairwise 0 fs

theorem fieldsLeaves_pairwise : ∀ (k : Nat) (fs : List SchemaField),
    (fieldsLeaves k fs).Pairwise fun a b => a.1 < b.1
  | _, [] => .nil
  | k, ⟨_, s⟩ :: fs => by
      rw [fieldsLeaves, List.pairwise_append, List.pairwise_map]
      refine ⟨?_, fieldsLeaves_pairwise (k + 1) fs, ?_⟩
      · exact (leaves_pairwise s).imp fun h => List.cons_lt_cons_iff.2 (.inr ⟨rfl, h⟩)
      · -- all that follows the first field stands in a field of a greater number
        rintro _ hfirst ⟨p, name⟩ hlater
        obtain ⟨l, -, rfl⟩ := List.mem_map.1 hfirst
        obtain ⟨i, q, _, rfl, -, -⟩ := (mem_fieldsLeaves_iff (k + 1) fs p name).1 hlater
        exact List.cons_lt_cons_iff.2 (.inl (by omega))

end

/-! ### Texts that are not collected -/

mutual

/-- Two schemas differ at most in the identifiers, kinds and display names of what is written
out in place, and in the names of fields. -/
inductive Relabels : SchemaRef → SchemaRef → Prop where
  | named (name : String) : Relabels (.named name) (.named name)
  | object {o o' : ObjectSchema} (h : FieldsRelabel o.fields o'.fields) :
      Relabels (.object o) (.object o')

inductive FieldsRelabel : List SchemaField → List SchemaField → Prop where
  | nil : FieldsRelabel [] []
  | cons {f f' : SchemaField} {fs fs' : List SchemaField} (h : Relabels f.schema f'.schema)
      (hs : FieldsRelabel fs fs') : FieldsRelabel (f :: fs) (f' :: fs')

end

mutual

theorem Relabels.names_eq {s s' : SchemaRef} : s.Relabels s' → s.names = s'.names
  | .named _ => rfl
  | .object h => by rw [names_object, names_object, h.flatMap_names_eq]

theorem FieldsRelabel.flatMap_names_eq {fs fs' : List SchemaField} :
    FieldsRelabel fs fs' →
      fs.flatMap (fun f => f.schema.names) = fs'.flatMap fun f => f.schema.names
  | .nil => rfl
  | .cons h hs => by
      rw [List.flatMap_cons, List.flatMap_cons, h.names_eq, hs.flatMap_names_eq]

end

/-- **Collecting the names in a schema.** What was collected before stays as it is, and behind it
come the names at the leaves of the schema from left to right: one for each address at which a
name stands, in the order of the addresses. For a schema that is written out in place these are
the names in its fields, one field after the other. Identifiers, kinds, display names and names of
fields are of no matter. -/
theorem addNames_appends_leaves (s : SchemaRef) (out : List String) :
    s.addNames out = out ++ s.names ∧
    s.names = s.leaves.map Prod.snd ∧
    (∀ p name, (p, name) ∈ s.leaves ↔ s.nameAt? p = some name) ∧
    (s.leaves.Pairwise fun a b => a.1 < b.1) ∧
    (∀ o, s = .object o →
      s.addNames out = out ++ o.fields.flatMap fun f => f.schema.addNames []) ∧
    ∀ s', s.Relabels s' → s'.addNames out = s.addNames out := by
  refine ⟨addNames_eq_append s out, (leaves_map_snd s).symm, mem_leaves_iff s, leaves_pairwise s,
    ?_, ?_⟩
  · rintro o rfl
    simp only [addNames_nil]
    rw [addNames_eq_append, names_object]
  · intro s' h
    rw [addNames_eq_append, addNames_eq_append, h.names_eq]

/-- A name is collected for each field in which it stands. -/
example :
    let position : ObjectSchema :=
      ⟨some "dtmi:position;1", "Object", some "Position",
        [⟨"x", .named "double"⟩, ⟨"y", .named "double"⟩]⟩
    let sample : ObjectSchema :=
      .new "dtmi:sample;1" [⟨"at", .object position⟩, ⟨"unit", .named "string"⟩]
    (object sample).addNames ["integer"] = ["integer", "double", "double", "string"] := by
  decide

end SchemaRef

end DeviceTwin
