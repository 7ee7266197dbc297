import DeviceTwin.Proofs.Json.Spelling.Positional
import DeviceTwin.Proofs.Model.Form.Incidental

/-!
# The two forms of the records of a description

A record of a description may be written by position or by key. `RecordName` names the records,
and `Around` puts around a value that is read as one of them what makes of it a value that
is read as another one, through any number of lists, records and schemas. Two values are
`Interchangeable` if no reader around them can tell which one it has, and the two forms of a
record are (`Gives.interchangeable`).
-/

namespace DeviceTwin

open DeviceTwin.Json DeviceTwin.Json.Spelling

/-! ### Interchangeable values -/

namespace Json.Spelling

variable [RealReader]

/-- Values in brackets that are read alike, also where they are first read through. -/
structure Interchangeable {α : Type} (r : Reader α) (τ τ' : Spelling) : Prop where
  left : τ.IsNested
  right : τ'.IsNested
  height_eq : τ.height = τ'.height
  readable_iff : τ.Readable ↔ τ'.Readable
  read_iff : ∀ c a, r c τ.document = .ok a ↔ r c τ'.document = .ok a

namespace Interchangeable

variable {α : Type} {before gap behind : Blanks} {τ τ' : Spelling}

theorem member {r : Record α} {f : Field} {as bs : List Member} {k : KeySpelling}
    (hkey : k.name = some f.key) (hfield : fieldOf r.fields f.key = some f)
    (h : Interchangeable f.read τ τ') :
    Interchangeable r.read (.object before gap (as ++ (k, τ) :: bs) behind)
      (.object before gap (as ++ (k, τ') :: bs) behind) where
  left := trivial
  right := trivial
  height_eq := by
    refine congrArg Nat.succ (eq_of_forall_ge_iff fun n => ?_)
    rw [membersHeight_le_iff, membersHeight_le_iff, forall_mem_insert, forall_mem_insert,
      h.height_eq]
  readable_iff := by
    simp only [readable_object_iff, forall_mem_insert, h.readable_iff]
  read_iff c a := by
    simp only [document, Record.read_object_eq_ok_iff]
    refine exists_congr fun c' => and_congr_right fun _ => exists_congr fun vs =>
      and_congr_left fun _ => ⟨?_, ?_⟩
    · exact gathered_replace hkey hfield fun v => (h.read_iff c' v).1
    · exact gathered_replace hkey hfield fun v => (h.read_iff c' v).2

theorem height_insert_eq (as : List Spelling) {bs : List Spelling} (h : τ.height = τ'.height) :
    (list before gap (as ++ τ :: bs) behind).height =
      (list before gap (as ++ τ' :: bs) behind).height := by
  refine congrArg Nat.succ (eq_of_forall_ge_iff fun n => ?_)
  rw [itemsHeight_le_iff, itemsHeight_le_iff, forall_mem_insert, forall_mem_insert, h]

theorem position {r : Record α} {f : Field} (as : List Spelling) {bs : List Spelling}
    (hfield : r.fields[as.length]? = some f) (h : Interchangeable f.read τ τ') :
    Interchangeable r.read (.list before gap (as ++ τ :: bs) behind)
      (.list before gap (as ++ τ' :: bs) behind) where
  left := trivial
  right := trivial
  height_eq := height_insert_eq as h.height_eq
  readable_iff := by simp only [readable_list_iff, forall_mem_insert, h.readable_iff]
  read_iff c a := by
    simp only [document, Record.read_list_eq_ok_iff]
    refine exists_congr fun c' => and_congr_right fun _ => exists_congr fun vs =>
      and_congr_left fun _ => ⟨?_, ?_⟩
    · exact listed_replace as hfield fun v => (h.read_iff c' v).1
    · exact listed_replace as hfield fun v => (h.read_iff c' v).2

theorem item {r : Reader α} (as : List Spelling) {bs : List Spelling}
    (h : Interchangeable r τ τ') :
    Interchangeable r.list (.list before gap (as ++ τ :: bs) behind)
      (.list before gap (as ++ τ' :: bs) behind) where
  left := trivial
  right := trivial
  height_eq := height_insert_eq as h.height_eq
  readable_iff := by simp only [readable_list_iff, forall_mem_insert, h.readable_iff]
  read_iff c as := by
    simp only [document, Reader.list, bind_eq_ok_iff]
    refine exists_congr fun c' => and_congr_right fun _ => ⟨?_, ?_⟩
    · exact Reader.itemsOf_replace fun v => (h.read_iff c' v).1
    · exact Reader.itemsOf_replace fun v => (h.read_iff c' v).2

theorem optional {r : Reader α} (h : Interchangeable r τ τ') :
    Interchangeable r.optional τ τ' where
  left := h.left
  right := h.right
  height_eq := h.height_eq
  readable_iff := h.readable_iff
  read_iff c a := by
    simp only [h.left.optional_eq, h.right.optional_eq, Reader.map_eq_ok_iff, h.read_iff]

/-- Object schemas that are read alike from a buffer are schemas that are read alike. -/
theorem schema (h : Interchangeable ObjectSchema.record.read τ τ') :
    Interchangeable SchemaRef.codec.read τ τ' where
  left := h.left
  right := h.right
  height_eq := h.height_eq
  readable_iff := h.readable_iff
  read_iff c s := by
    have hheight : τ.document.height = τ'.document.height := h.height_eq
    simp only [SchemaRef.codec_read_iff, check_document_iff, h.readable_iff, hheight,
      h.left.ofWhole_eq_ok_iff, h.right.ofWhole_eq_ok_iff, h.read_iff]

end Interchangeable

/-- Two forms that fill the same slots, and give nothing but null in which they differ, are
interchangeable. -/
theorem Gives.interchangeable {α : Type} {r : Record α} {σ σ' : ℕ → Option Spelling}
    {τ τ' : Spelling} (hkeys : (r.fields.map Field.key).Nodup) (hτ : Gives r.fields σ τ)
    (hτ' : Gives r.fields σ' τ')
    (hfilled : ∀ c vs, Slots.Filled c r.fields σ vs ↔ Slots.Filled c r.fields σ' vs)
    (hvalues : ∀ P : Spelling → Prop, (∀ before behind, P (.scalar before .null behind)) →
      ((∀ i < r.fields.length, ∀ ρ ∈ σ i, P ρ) ↔ ∀ i < r.fields.length, ∀ ρ ∈ σ' i, P ρ)) :
    Interchangeable r.read τ τ' where
  left := by cases hτ <;> trivial
  right := by cases hτ' <;> trivial
  height_eq := by
    refine eq_of_forall_ge_iff fun n => ?_
    match n with
    | 0 => exact iff_of_false hτ.height_pos.not_ge hτ'.height_pos.not_ge
    | n + 1 => rw [hτ.height_le_iff, hτ'.height_le_iff, hvalues _ fun _ _ => Nat.zero_le n]
  readable_iff := by
    rw [hτ.readable_iff, hτ'.readable_iff, hvalues _ fun _ _ => trivial]
  read_iff c a := by
    simp only [hτ.read_eq_ok_iff hkeys, hτ'.read_eq_ok_iff hkeys, hfilled]

end Json.Spelling

/-! ### What may stand around a record -/

/-- `C` puts around a value that `inner` reads what makes of it a value of another reader. -/
inductive Around {β : Type} (inner : Reader β) :
    {α : Type} → Reader α → (Spelling → Spelling) → Prop
  | here : Around inner inner id
  | member {α : Type} {r : Record α} {before gap behind : Blanks} (f : Field) (as bs : List Member)
      {k : KeySpelling} {C : Spelling → Spelling} (hkey : k.name = some f.key)
      (hfield : fieldOf r.fields f.key = some f) (h : Around inner f.read C) :
      Around inner r.read fun τ => .object before gap (as ++ (k, C τ) :: bs) behind
  | position {α : Type} {r : Record α} {before gap behind : Blanks} (f : Field)
      (as bs : List Spelling) {C : Spelling → Spelling} (hfield : r.fields[as.length]? = some f)
      (h : Around inner f.read C) :
      Around inner r.read fun τ => .list before gap (as ++ C τ :: bs) behind
  | item {α : Type} {r : Reader α} {before gap behind : Blanks} (as bs : List Spelling)
      {C : Spelling → Spelling} (h : Around inner r C) :
      Around inner r.list fun τ => .list before gap (as ++ C τ :: bs) behind
  | optional {α : Type} {r : Reader α} {C : Spelling → Spelling} (h : Around inner r C) :
      Around inner r.optional C
  | schema {C : Spelling → Spelling} (h : Around inner ObjectSchema.record.read C) :
      Around inner SchemaRef.codec.read C

namespace Around

variable {α β : Type} {inner : Reader β} {r : Reader α} {C : Spelling → Spelling}
  {τ τ' : Spelling}

theorem isNested (h : Around inner r C) (hτ : τ.IsNested) : (C τ).IsNested := by
  induction h with
  | here => exact hτ
  | member | position | item => trivial
  | optional _ ih | schema _ ih => exact ih

theorem trans {γ : Type} {outer : Reader γ} {D : Spelling → Spelling} (h : Around inner r C)
    (h' : Around r outer D) : Around inner outer (D ∘ C) := by
  induction h' with
  | here => exact h
  | member f as bs hkey hfield _ ih => exact .member f as bs hkey hfield ih
  | position f as bs hfield _ ih => exact .position f as bs hfield ih
  | item as bs _ ih => exact .item as bs ih
  | optional _ ih => exact .optional ih
  | schema _ ih => exact .schema ih

variable [RealReader]

/-- What is interchangeable inside is interchangeable with all that stands around it. -/
theorem interchangeable (h : Around inner r C) (hτ : Interchangeable inner τ τ') :
    Interchangeable r (C τ) (C τ') := by
  induction h with
  | here => exact hτ
  | member _ _ _ hkey hfield _ ih => exact ih.member hkey hfield
  | position _ as _ hfield _ ih => exact ih.position as hfield
  | item as _ _ ih => exact ih.item as
  | optional _ ih => exact ih.optional
  | schema _ ih => exact ih.schema

/-- What is refused inside is refused with all that stands around it. -/
theorem ne_ok (h : Around inner r C) (hτ : τ.IsNested)
    (hrefused : ∀ c b, inner c τ.document ≠ .ok b) : ∀ c a, r c (C τ).document ≠ .ok a := by
  induction h with
  | here => exact hrefused
  | member _ _ _ hkey hfield _ ih => exact member_ne_ok hkey hfield ih
  | position _ _ _ hfield _ ih => exact position_ne_ok _ hfield ih
  | item _ _ _ ih => exact item_ne_ok ih
  | optional h ih => exact (h.isNested hτ).optional_ne_ok ih
  | schema h ih => exact (h.isNested hτ).schema_ne_ok ih

end Around

/-! ### The records -/

/-- The records that descriptions are made of. -/
inductive RecordName where
  | model
  | objectSchema
  | schemaField
  | property
  | telemetry
  | commandPayload
  | completionEvents
  | command
  | event
  | relationship
  | state
  | stateMachine
  | transition
  | action
  | propertyUpdate
  | physics
  | rule
  | goal
  | aiModel
  deriving DecidableEq, Repr

namespace RecordName

@[reducible] def Value : RecordName → Type
  | model => Model
  | objectSchema => ObjectSchema
  | schemaField => SchemaField
  | property => Property
  | telemetry => Telemetry
  | commandPayload => CommandPayload
  | completionEvents => CompletionEvents
  | command => Command
  | event => Event
  | relationship => Relationship
  | state => State
  | stateMachine => StateMachine
  | transition => Transition
  | action => Action
  | propertyUpdate => PropertyUpdate
  | physics => Physics
  | rule => Rule
  | goal => Goal
  | aiModel => AiModel

def record : (R : RecordName) → Record R.Value
  | model => Model.record
  | objectSchema => ObjectSchema.record
  | schemaField => SchemaField.record SchemaRef.codec
  | property => Property.record
  | telemetry => Telemetry.record
  | commandPayload => CommandPayload.record
  | completionEvents => CompletionEvents.record
  | command => Command.record
  | event => Event.record
  | relationship => Relationship.record
  | state => State.record
  | stateMachine => StateMachine.record
  | transition => Transition.record
  | action => Action.record
  | propertyUpdate => PropertyUpdate.record
  | physics => Physics.record
  | rule => Rule.record
  | goal => Goal.record
  | aiModel => AiModel.record

def ofText [RealReader] (R : RecordName) (text : String) : Except Fault R.Value :=
  Reader.readText R.record.read text

theorem nodup_keys (R : RecordName) : (R.record.fields.map Field.key).Nodup := by
  cases R <;> decide

theorem record_placeless : ∀ R : RecordName, R.record.read.Placeless
  | model => Model.record_placeless
  | objectSchema => ObjectSchema.record_placeless
  | schemaField => SchemaField.record_placeless SchemaRef.codec_placeless
  | property => Property.record_placeless
  | telemetry => Telemetry.record_placeless
  | commandPayload => CommandPayload.record_placeless
  | completionEvents => CompletionEvents.record_placeless
  | command => Command.record_placeless
  | event => Event.record_placeless
  | relationship => Relationship.record_placeless
  | state => State.record_placeless
  | stateMachine => StateMachine.record_placeless
  | transition => Transition.record_placeless
  | action => Action.record_placeless
  | propertyUpdate => PropertyUpdate.record_placeless
  | physics => Physics.record_placeless
  | rule => Rule.record_placeless
  | goal => Goal.record_placeless
  | aiModel => AiModel.record_placeless

theorem parts_build (R : RecordName) (vs : Slots R.record.fields) :
    R.record.parts (R.record.build vs) = vs := by
  cases R <;> rfl

/-- A field that is neither required nor optional does not take null. -/
theorem read_null_ne_ok (R : RecordName) :
    ∀ f ∈ R.record.fields, f.absent ≠ none → ¬ f.IsOptional →
      ∀ c start stop v, f.read c (.scalar start stop .null) ≠ .ok v := by
  have hcases : ∀ f ∈ R.record.fields, f.absent = none ∨ f.IsOptional ∨
      ∀ c start stop v, f.read c (.scalar start stop .null) ≠ .ok v := by
    cases R <;> repeat' first
      | exact List.forall_mem_nil _
      | refine List.forall_mem_cons.2 ⟨?_, ?_⟩
      | exact .inl rfl
      | exact .inr (.inl ⟨_, _, _, rfl⟩)
      | exact .inr (.inr fun _ _ _ _ => nofun)
  intro f hf habsent hoptional
  exact ((hcases f hf).resolve_left habsent).resolve_left hoptional

section Forms

variable [RealReader] {R : RecordName} {σ : ℕ → Option Spelling} {τ τ' : Spelling}

theorem interchangeable (hτ : Gives R.record.fields σ τ) (hτ' : Gives R.record.fields σ τ') :
    Interchangeable R.record.read τ τ' :=
  hτ.interchangeable R.nodup_keys hτ' (fun _ _ => Iff.rfl) fun _ _ => Iff.rfl

/-- Null for an optional field may be left out. -/
theorem interchangeable_null {i : ℕ} (h : i < R.record.fields.length)
    (hoptional : R.record.fields[i].IsOptional) {before behind : Blanks}
    (hσ : σ i = some (.scalar before .null behind)) (hτ : Gives R.record.fields σ τ)
    (hτ' : Gives R.record.fields (Function.update σ i none) τ') :
    Interchangeable R.record.read τ τ' :=
  hτ.interchangeable R.nodup_keys hτ'
    (fun _ _ => (Slots.filled_update_none_iff h hoptional hσ).symm)
    fun _ hP => (forall_update_none_iff hσ (hP before behind)).symm

/-- A field that is left out holds what its description says. -/
theorem absent_eq (hτ : Gives R.record.fields σ τ) {c : Context} {b : R.Value}
    (hread : R.record.read c τ.document = .ok b) {i : ℕ} (h : i < R.record.fields.length)
    (hσ : σ i = none) : R.record.fields[i].absent = some ((R.record.parts b).get i h) := by
  obtain ⟨c', -, vs, hvs, rfl⟩ := (hτ.read_eq_ok_iff R.nodup_keys).1 hread
  rw [R.parts_build]
  exact hvs.absent_eq h hσ

theorem ne_ok_of_missing (hτ : Gives R.record.fields σ τ) {i : ℕ} (h : i < R.record.fields.length)
    (hσ : σ i = none) (habsent : R.record.fields[i].absent = none) :
    ∀ c b, R.record.read c τ.document ≠ .ok b :=
  fun _ _ hread => nomatch habsent.symm.trans (absent_eq hτ hread h hσ)

theorem ne_ok_of_null (hτ : Gives R.record.fields σ τ) {i : ℕ} (h : i < R.record.fields.length)
    {before behind : Blanks} (hσ : σ i = some (.scalar before .null behind))
    (habsent : R.record.fields[i].absent ≠ none) (hoptional : ¬ R.record.fields[i].IsOptional) :
    ∀ c b, R.record.read c τ.document ≠ .ok b := by
  intro c b hread
  obtain ⟨c', -, vs, hvs, -⟩ := (hτ.read_eq_ok_iff R.nodup_keys).1 hread
  exact R.read_null_ne_ok _ (List.getElem_mem h) habsent hoptional c' [] [] _ (hvs.read_eq h hσ)

end Forms

/-- Wherever a record stands in another one, also inside of schemas, it may be written by
position or by key and the text is read as the same. In either form it is refused if a field
without a default is left out or one with a default is null, unless that is optional; a field
that is left out holds its default, and null for an optional field is as good as nothing. -/
theorem forms_agree [RealReader] (R S : RecordName) {C : Spelling → Spelling}
    {σ : ℕ → Option Spelling} {τ : Spelling} {text : String}
    (hC : Around R.record.read S.record.read C)
    (hτ : Gives R.record.fields σ τ) (htext : (C τ).Spells text) :
    (∀ τ' text', Gives R.record.fields σ τ' → (C τ').Spells text' →
      (∀ c b, R.record.read c τ.document = .ok b ↔ R.record.read c τ'.document = .ok b) ∧
      ∀ a, S.ofText text = .ok a ↔ S.ofText text' = .ok a) ∧
    (∀ i (h : i < R.record.fields.length), σ i = none →
      (R.record.fields[i].absent = none → ∀ a, S.ofText text ≠ .ok a) ∧
      ∀ c b, R.record.read c τ.document = .ok b →
        R.record.fields[i].absent = some ((R.record.parts b).get i h)) ∧
    (∀ i (h : i < R.record.fields.length) before behind,
      σ i = some (.scalar before .null behind) →
      (R.record.fields[i].IsOptional →
        ∀ τ' text', Gives R.record.fields (Function.update σ i none) τ' → (C τ').Spells text' →
          ∀ a, S.ofText text = .ok a ↔ S.ofText text' = .ok a) ∧
      (R.record.fields[i].absent ≠ none → ¬ R.record.fields[i].IsOptional →
        ∀ a, S.ofText text ≠ .ok a)) := by
  have hread : ∀ {text : String} {τ : Spelling}, (C τ).Spells text → ∀ {a},
      S.ofText text = .ok a ↔ S.record.read .ofText (C τ).document = .ok a :=
    fun h => h.readText_eq_ok_iff S.record_placeless
  have halike : ∀ {τ' : Spelling} {text' : String}, Interchangeable R.record.read τ τ' →
      (C τ').Spells text' → ∀ a, S.ofText text = .ok a ↔ S.ofText text' = .ok a := by
    intro τ' text' hτ' htext' a
    rw [hread htext, hread htext', (hC.interchangeable hτ').read_iff]
  have hrefused : (∀ c b, R.record.read c τ.document ≠ .ok b) → ∀ a, S.ofText text ≠ .ok a :=
    fun h a hok => hC.ne_ok (interchangeable hτ hτ).left h .ofText a ((hread htext).1 hok)
  refine ⟨fun τ' text' hτ' htext' => ⟨?_, ?_⟩, fun i h hσ => ⟨?_, ?_⟩,
    fun i h before behind hσ => ⟨?_, ?_⟩⟩
  · exact (interchangeable hτ hτ').read_iff
  · exact halike (interchangeable hτ hτ') htext'
  · exact fun habsent => hrefused (ne_ok_of_missing hτ h hσ habsent)
  · exact fun c b hb => absent_eq hτ hb h hσ
  · exact fun hoptional τ' text' hτ' htext' =>
      halike (interchangeable_null h hoptional hσ hτ hτ') htext'
  · exact fun habsent hoptional => hrefused (ne_ok_of_null hτ h hσ habsent hoptional)

open scoped Concrete

/-- A short telemetry by position. The fields of its schema are one field, which is yet to be
filled in. -/
def aroundField (τ : Spelling) : Spelling :=
  .list .none .none
    [.plain "a" (by decide), .object .none .none
      [(.plain "fields" (by decide), .list .none .none [τ] .none)] .none] .none

theorem around_aroundField :
    Around schemaField.record.read telemetry.record.read aroundField := by
  refine .position (.required "schema" SchemaRef.codec) [_] [] rfl (.schema ?_)
  refine .member (.withDefault "fields" [] schemaField.record.codec.list) [] [] (by decide) rfl ?_
  exact .item [] [] .here

/-- The same with a field whose schema is yet to be filled in. -/
def aroundSchema (τ : Spelling) : Spelling :=
  aroundField (.list .none .none [.plain "b" (by decide), τ] .none)

theorem around_aroundSchema :
    Around objectSchema.record.read telemetry.record.read aroundSchema := by
  refine Around.trans ?_ around_aroundField
  exact .position (.required "schema" SchemaRef.codec) [_] [] rfl (.schema .here)

def aroundText (field : String) : String :=
  "[\"a\",\x7b\"fields\":[" ++ field ++ "]\x7d]"

def shortTelemetry (id : Option String) : Telemetry :=
  ⟨"a", .object ⟨none, "Object", none, [⟨"b", .object ⟨id, "Object", none, []⟩⟩]⟩, none, none, none⟩

theorem isPlain_id : Quoted.IsPlain "@id" := by
  decide

/-- An identifier under its key. -/
def keyed : Spelling :=
  .object .none .none [(.plain "@id" isPlain_id, plain "p" (by decide))] .none

theorem gives_keyed :
    Gives objectSchema.record.fields (fun i => [plain "p" (by decide)][i]?) keyed := by
  refine .byKey (List.forall_mem_singleton.2 ⟨_, List.mem_cons_self, by decide⟩) ?_
  rintro (- | - | - | - | i) h
  · rfl
  · rfl
  · rfl
  · rfl
  · exact absurd h (Nat.not_lt.2 (Nat.le_add_left 4 i))

theorem keyed_spells :
    (aroundSchema keyed).Spells (aroundText "[\"b\",\x7b\"@id\":\"p\"\x7d]") :=
  spells_of_eq (by decide +kernel)

theorem gives_empty :
    Gives objectSchema.record.fields
      (Function.update (fun i => [.scalar .none .null .none][i]?) 0 none)
      (.object .none .none [] .none) := by
  refine .byKey (List.forall_mem_nil _) fun i h => ?_
  cases i <;> rfl

theorem empty_spells : (aroundSchema (.object .none .none [] .none)).Spells
    (aroundText "[\"b\",\x7b\x7d]") :=
  spells_of_eq (by decide +kernel)

/-- A schema below a schema by position and by key, and three more of its forms: with null for
its identifier, with null for its kind, and left out. -/
theorem forms_agree_short :
    telemetry.ofText (aroundText "[\"b\",[\"p\"]]") = .ok (shortTelemetry (some "p")) ∧
    telemetry.ofText (aroundText "[\"b\",\x7b\"@id\":\"p\"\x7d]") =
      .ok (shortTelemetry (some "p")) ∧
    telemetry.ofText (aroundText "[\"b\",[null]]") = .ok (shortTelemetry none) ∧
    (∀ a, telemetry.ofText (aroundText "[\"b\",[\"p\",null]]") ≠ .ok a) ∧
    ∀ a, telemetry.ofText (aroundText "[\"b\"]") ≠ .ok a := by
  have hkeyed : telemetry.ofText (aroundText "[\"b\",\x7b\"@id\":\"p\"\x7d]") =
      .ok (shortTelemetry (some "p")) :=
    (keyed_spells.readText_eq_ok_iff telemetry.record_placeless).2 (by decide +kernel)
  have hempty : telemetry.ofText (aroundText "[\"b\",\x7b\x7d]") = .ok (shortTelemetry none) :=
    (empty_spells.readText_eq_ok_iff telemetry.record_placeless).2 (by decide +kernel)
  refine ⟨?_, hkeyed, ?_, ?_, ?_⟩
  · have hpositional : Gives objectSchema.record.fields (fun i => [plain "p" (by decide)][i]?)
        (.list .none .none [plain "p" (by decide)] .none) := .byPosition (by decide)
    exact (((forms_agree objectSchema telemetry around_aroundSchema hpositional
      (spells_of_eq (by decide +kernel))).1 _ _ gives_keyed keyed_spells).2 _).2 hkeyed
  · have hnull : Gives objectSchema.record.fields (fun i => [.scalar .none .null .none][i]?)
        (.list .none .none [.scalar .none .null .none] .none) := .byPosition (by decide)
    exact (((forms_agree objectSchema telemetry around_aroundSchema hnull
      (spells_of_eq (by decide +kernel))).2.2 0 (by decide) _ _ rfl).1 ⟨_, _, _, rfl⟩
        _ _ gives_empty empty_spells _).2 hempty
  · have hnull : Gives objectSchema.record.fields
        (fun i => [plain "p" (by decide), .scalar .none .null .none][i]?)
        (.list .none .none [plain "p" (by decide), .scalar .none .null .none] .none) :=
      .byPosition (by decide)
    have hrequired : ¬ objectSchema.record.fields[1].IsOptional := fun h =>
      (h.read_null .buffered [] []).elim fun _ => nofun
    exact ((forms_agree objectSchema telemetry around_aroundSchema hnull
      (spells_of_eq (by decide +kernel))).2.2 1 (by decide) _ _ rfl).2 nofun hrequired
  · have hmissing : Gives schemaField.record.fields (fun i => [plain "b" (by decide)][i]?)
        (.list .none .none [plain "b" (by decide)] .none) := .byPosition (by decide)
    exact ((forms_agree schemaField telemetry around_aroundField hmissing
      (spells_of_eq (by decide +kernel))).2.1 1 (by decide) rfl).1 rfl

end RecordName

end DeviceTwin
