import DeviceTwin.Model.Form.Schema
import DeviceTwin.Proofs.Json.Record

/-!
# Schemas are read back

The codec for schemas of a given depth reads back every schema that is no deeper, by
induction on the depth. `SchemaRef.codec` reads with the depth of the document and writes
with that of the schema; the two agree, as a document that holds a written schema is deep
enough and codecs of different depths write a schema alike. How deep it is at least follows
from the number of object schemas nested in it (`SchemaRef.nesting`), each of which opens
three brackets.
-/

namespace DeviceTwin

open DeviceTwin.Json

theorem SchemaRef.height_le_fieldsHeight {f : SchemaField} {fs : List SchemaField} (h : f ∈ fs) :
    f.schema.height ≤ SchemaRef.fieldsHeight fs := by
  induction fs with
  | nil => exact absurd h List.not_mem_nil
  | cons g fs ih =>
      obtain ⟨name, schema⟩ := g
      rw [SchemaRef.fieldsHeight]
      rcases List.mem_cons.1 h with rfl | h
      · exact Nat.le_max_left _ _
      · exact Nat.le_trans (ih h) (Nat.le_max_right _ _)

theorem SchemaRef.fieldsHeight_le {fs : List SchemaField} {m : ℕ}
    (h : ∀ f ∈ fs, f.schema.height ≤ m) : SchemaRef.fieldsHeight fs ≤ m := by
  induction fs with
  | nil => exact Nat.zero_le m
  | cons g fs ih =>
      obtain ⟨name, schema⟩ := g
      obtain ⟨hg, hfs⟩ := List.forall_mem_cons.1 h
      rw [SchemaRef.fieldsHeight]
      exact Nat.max_le.2 ⟨hg, ih hfs⟩

namespace SchemaRef

mutual

/-- The number of object schemas nested in each other. -/
def nesting : SchemaRef → ℕ
  | named _ => 0
  | object schema => objectNesting schema

def objectNesting : ObjectSchema → ℕ
  | ⟨_, _, _, fields⟩ => fieldsNesting fields + 1

def fieldsNesting : List SchemaField → ℕ
  | [] => 0
  | ⟨_, schema⟩ :: fields => max (nesting schema) (fieldsNesting fields)

end

theorem fieldsNesting_le_iff {fs : List SchemaField} {n : ℕ} :
    fieldsNesting fs ≤ n ↔ ∀ f ∈ fs, f.schema.nesting ≤ n := by
  induction fs with
  | nil => simp [fieldsNesting]
  | cons f fs ih =>
      obtain ⟨name, schema⟩ := f
      rw [fieldsNesting, Nat.max_le, ih, List.forall_mem_cons]

mutual

/-- A name inside of the innermost object schema adds at most one to the height. -/
theorem height_le_nesting : ∀ s : SchemaRef, s.height ≤ s.nesting + 1
  | .named _ => Nat.le_refl 1
  | .object ⟨_, _, _, fields⟩ => Nat.succ_le_succ (fieldsHeight_le_nesting fields)

theorem fieldsHeight_le_nesting :
    ∀ fs : List SchemaField, fieldsHeight fs ≤ fieldsNesting fs + 1
  | [] => Nat.zero_le _
  | ⟨_, schema⟩ :: fs => by
      have hschema := height_le_nesting schema
      have hfs := fieldsHeight_le_nesting fs
      rw [fieldsHeight, fieldsNesting]
      omega

end

end SchemaRef

theorem SchemaField.nodup_keys (c : Codec SchemaRef) :
    ((SchemaField.record c).fields.map Field.key).Nodup := by
  have hkeys : ["name", "schema"].Nodup := by decide
  exact hkeys

theorem ObjectSchema.nodup_keys (c : Codec SchemaRef) :
    ((ObjectSchema.recordOf c).fields.map Field.key).Nodup := by
  have hkeys : ["@id", "@type", "displayName", "fields"].Nodup := by decide
  exact hkeys

theorem SchemaField.restores {c : Codec SchemaRef} {f : SchemaField} (h : c.Restores f.schema) :
    (SchemaField.record c).codec.Restores f := by
  refine Record.restores (nodup_keys c) ?_
  exact ⟨Field.required_restores _ (Codec.string_restores _), Field.required_restores _ h, trivial⟩

/-- An object schema is read back when the schemas of its fields are. -/
theorem ObjectSchema.recordOf_restores {c : Codec SchemaRef} {s : ObjectSchema}
    (h : ∀ f ∈ s.fields, c.Restores f.schema) : (ObjectSchema.recordOf c).codec.Restores s := by
  refine Record.restores (nodup_keys c) ?_
  refine ⟨Field.optional_string_restores _ _,
    Field.withDefault_restores _ _ (Codec.string_restores _),
    Field.optional_string_restores _ _, Field.withDefault_restores _ _ ?_, trivial⟩
  exact Codec.list_restores fun f hf => SchemaField.restores (h f hf)

namespace SchemaRef

/-! ### Codecs of a given depth -/

/-- A value is read through before it is tried, so it is refused where it is too deep. -/
theorem codecWithin_refuses (n : ℕ) (j : Json) : (codecWithin (n + 1)).read.Refuses j := by
  intro c d hd hc
  have hsource := Context.source_of_not_fits hc
  simp only [codecWithin, if_pos hsource]
  exact (hd.check_tooDeep hc).bind _

/-- A value that is no text is read as the object schema that it is read as in a document
known to be complete. -/
theorem codecWithin_reads_object {n : ℕ} {es : List (String × Json)} {schema : ObjectSchema}
    (h : (ObjectSchema.recordOf (codecWithin n)).read.Reads (.object es) schema) :
    (codecWithin (n + 1)).read.Reads (.object es) (.object schema) := by
  intro c d hd hc
  have hwhole : ofWhole (ObjectSchema.recordOf (codecWithin n)).read d = .ok (.object schema) := by
    have hname : ∃ f, Reader.string .buffered d = .error f := by
      cases hd
      exact ⟨_, rfl⟩
    obtain ⟨f, hf⟩ := hname
    simp only [ofWhole, hf, h .buffered d hd nofun]
  have hcheck := hd.check hc
  simp only [codecWithin, hcheck, hwhole, ok_bind]
  split_ifs <;> rfl

theorem codecWithin_restores :
    ∀ {n : ℕ} {s : SchemaRef}, s.height ≤ n → (codecWithin n).Restores s
  | 0, .named _, h => absurd h (Nat.not_succ_le_zero _)
  | 0, .object _, h => absurd h (Nat.not_succ_le_zero _)
  | n + 1, .named name, _ => by
      refine ⟨fun c d hd hc => ?_, codecWithin_refuses n _, trivial⟩
      have hname : ofWhole (ObjectSchema.recordOf (codecWithin n)).read d = .ok (named name) := by
        rw [ofWhole, Reader.string_reads name .buffered d hd nofun]
      have hcheck := hd.check hc
      simp only [codecWithin, hcheck, hname, ok_bind]
      split_ifs <;> rfl
  | n + 1, .object ⟨id, kind, displayName, fields⟩, h => by
      have hfields : ∀ f ∈ fields, (codecWithin n).Restores f.schema := by
        intro f hf
        exact codecWithin_restores
          (Nat.le_trans (height_le_fieldsHeight hf) (Nat.le_of_succ_le_succ h))
      have hobject := ObjectSchema.recordOf_restores (s := ⟨id, kind, displayName, fields⟩) hfields
      exact ⟨codecWithin_reads_object hobject.reads, codecWithin_refuses n _, hobject.bounded⟩

/-- Codecs that are deep enough write a schema alike. -/
theorem codecWithin_write_congr :
    ∀ {n m : ℕ} {s : SchemaRef}, s.height ≤ n → s.height ≤ m →
      (codecWithin n).write s = (codecWithin m).write s
  | 0, _, .named _, h, _ => absurd h (Nat.not_succ_le_zero _)
  | 0, _, .object _, h, _ => absurd h (Nat.not_succ_le_zero _)
  | _ + 1, 0, .named _, _, h => absurd h (Nat.not_succ_le_zero _)
  | _ + 1, 0, .object _, _, h => absurd h (Nat.not_succ_le_zero _)
  | n + 1, m + 1, .named _, _, _ => rfl
  | n + 1, m + 1, .object ⟨id, kind, displayName, fields⟩, hn, hm => by
      have hfields : fields.map (SchemaField.record (codecWithin n)).codec.write =
          fields.map (SchemaField.record (codecWithin m)).codec.write := by
        refine List.map_congr_left fun f hf => ?_
        have hle := height_le_fieldsHeight hf
        have hschema := codecWithin_write_congr (Nat.le_trans hle (Nat.le_of_succ_le_succ hn))
          (Nat.le_trans hle (Nat.le_of_succ_le_succ hm))
        simp only [Record.codec, Record.write, SchemaField.record, Slots.toMembers, hschema]
      simp only [codecWithin, Record.write, ObjectSchema.recordOf, Slots.toMembers, Codec.list,
        hfields]

/-- Each object schema around another one opens three brackets, and the innermost one two. -/
theorem nesting_le_codecWithin_write :
    ∀ {n : ℕ} {s : SchemaRef}, s.height ≤ n → 3 * s.nesting ≤ ((codecWithin n).write s).height + 1
  | 0, .named _, h => absurd h (Nat.not_succ_le_zero _)
  | 0, .object _, h => absurd h (Nat.not_succ_le_zero _)
  | n + 1, .named _, _ => Nat.zero_le _
  | n + 1, .object ⟨id, kind, displayName, fields⟩, h => by
      let items := fields.map (SchemaField.record (codecWithin n)).write
      have hfields : fieldsNesting fields ≤ Json.itemsHeight items / 3 := by
        refine fieldsNesting_le_iff.2 fun f hf => ?_
        have hschema := nesting_le_codecWithin_write
          (Nat.le_trans (height_le_fieldsHeight hf) (Nat.le_of_succ_le_succ h))
        have hmember : ((codecWithin n).write f.schema).height + 1 ≤
            ((SchemaField.record (codecWithin n)).write f).height :=
          Nat.succ_le_succ (Nat.le_trans (Nat.le_max_left _ _) (Nat.le_max_right _ _))
        have hitem : ((SchemaField.record (codecWithin n)).write f).height ≤
            Json.itemsHeight items :=
          Json.height_le_itemsHeight (List.mem_map_of_mem hf)
        omega
      have hlast : ("fields", Json.list items) ∈
          Slots.toMembers (ObjectSchema.recordOf (codecWithin n)).fields
            (id, kind, displayName, fields, ()) := by
        cases id <;> cases displayName <;>
          simp [ObjectSchema.recordOf, Slots.toMembers, Codec.list, Record.codec, items]
      have hlist : Json.itemsHeight items + 2 ≤
          ((codecWithin (n + 1)).write (.object ⟨id, kind, displayName, fields⟩)).height :=
        Nat.succ_le_succ (Json.height_le_entriesHeight hlast)
      rw [nesting, objectNesting]
      omega

theorem height_le_codecWithin_write {n : ℕ} {s : SchemaRef} (h : s.height ≤ n) :
    s.height ≤ ((codecWithin n).write s).height + 1 := by
  have hheight := height_le_nesting s
  have hnesting := nesting_le_codecWithin_write h
  omega

/-! ### Schemas of any depth -/

theorem nesting_le_codec_write (s : SchemaRef) : 3 * s.nesting ≤ (codec.write s).height + 1 :=
  nesting_le_codecWithin_write (Nat.le_refl s.height)

/-- The codec for schemas of any depth reads a value as the one that is as deep as it. -/
theorem codec_reads {j : Json} {s : SchemaRef}
    (h : (codecWithin (j.height + 1)).read.Reads j s) : codec.read.Reads j s := by
  intro c d hd hc
  rw [← hd.height_eq] at h
  exact h c d hd hc

theorem codec_refuses (j : Json) : codec.read.Refuses j :=
  fun c d hd hc => codecWithin_refuses d.height j c d hd hc

theorem codec_restores (s : SchemaRef) : codec.Restores s := by
  have hbounded := (codecWithin_restores (Nat.le_refl s.height)).bounded
  have hdeep : s.height ≤ (codec.write s).height + 1 :=
    height_le_codecWithin_write (Nat.le_refl _)
  have hwrite : codec.write s = (codecWithin ((codec.write s).height + 1)).write s :=
    codecWithin_write_congr (Nat.le_refl _) hdeep
  refine ⟨codec_reads ?_, codec_refuses _, hbounded⟩
  have hreads := (codecWithin_restores hdeep).reads
  rwa [← hwrite] at hreads

theorem codec_write_ne_null (s : SchemaRef) : codec.write s ≠ .null := by
  cases s <;> nofun

end SchemaRef

theorem ObjectSchema.restores (s : ObjectSchema) : ObjectSchema.record.codec.Restores s :=
  ObjectSchema.recordOf_restores fun f _ => SchemaRef.codec_restores f.schema

end DeviceTwin
