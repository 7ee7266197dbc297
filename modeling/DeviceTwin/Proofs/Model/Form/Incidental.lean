import DeviceTwin.Proofs.Json.Agreement
import DeviceTwin.Proofs.Json.Spelling.Change
import DeviceTwin.Proofs.Model.Form.Placeless

/-!
# The form of a description that does not count

A description may be written in many ways. `Within change` makes a change to one object that is
read as a record, at any depth inside of a description. If the change is harmless the text is
read as the same description (`Within.follows`), and if it is fatal the text is refused
(`Within.ne_ok`). The induction follows the readers from the description down to the object.

An inline schema is read through before it is tried as a record. What stands in it has to be
readable, also where no field is interested in it; outside of schemas it only has to be JSON.
-/

namespace DeviceTwin

open DeviceTwin.Json DeviceTwin.Json.Spelling

/-! ### Schemas of any depth -/

theorem SchemaField.record_agreeBelow {n : ℕ} {schema schema' : Codec SchemaRef}
    (h : Reader.AgreeBelow n schema.read schema'.read) :
    Reader.AgreeBelow (n + 1) (record schema).read (record schema').read := by
  -- the slots are of one type, but it is slow to see from the fields
  let e : Slots (record schema).fields → Slots (record schema').fields :=
    fun (name, s, ()) => (name, s, ())
  have he : e.Surjective := fun (name, s, ()) => ⟨(name, s, ()), rfl⟩
  refine Record.agreeBelow he (fun _ => rfl) ?_
  rintro ⟨name, s, ⟨⟩⟩
  exact .cons_same name (.cons h s .nil)

theorem ObjectSchema.recordOf_agreeBelow {n : ℕ} {schema schema' : Codec SchemaRef}
    (h : Reader.AgreeBelow n schema.read schema'.read) :
    Reader.AgreeBelow (n + 3) (recordOf schema).read (recordOf schema').read := by
  have hfields := (SchemaField.record_agreeBelow h).list
  let e : Slots (recordOf schema).fields → Slots (recordOf schema').fields :=
    fun (id, kind, displayName, fields, ()) => (id, kind, displayName, fields, ())
  have he : e.Surjective := fun (id, kind, displayName, fields, ()) =>
    ⟨(id, kind, displayName, fields, ()), rfl⟩
  refine Record.agreeBelow he (fun _ => rfl) ?_
  rintro ⟨id, kind, displayName, fields, ⟨⟩⟩
  exact .cons_same id (.cons_same kind (.cons_same displayName (.cons hfields fields .nil)))

namespace SchemaRef

/-- Object schemas that are read alike give schemas that are read alike. -/
theorem ofWhole_congr {object object' : Reader ObjectSchema} {d : Document} {s : SchemaRef}
    (h : ∀ o, object .buffered d = .ok o ↔ object' .buffered d = .ok o) :
    ofWhole object d = .ok s ↔ ofWhole object' d = .ok s := by
  simp only [ofWhole_eq_ok_iff, h]

/-- Codecs that are deep enough read a value alike. -/
theorem codecWithin_agreeBelow :
    ∀ {k n m : ℕ}, k ≤ n → k ≤ m →
      Reader.AgreeBelow k (codecWithin n).read (codecWithin m).read
  | 0, _, _, _, _ => fun _ d _ hd => absurd hd (Nat.not_lt_zero _)
  | k + 1, n + 1, m + 1, hn, hm => by
      intro c d s hd
      have hobject := ObjectSchema.recordOf_agreeBelow
        (codecWithin_agreeBelow (Nat.le_of_succ_le_succ hn) (Nat.le_of_succ_le_succ hm))
      rw [read_codecWithin_iff, read_codecWithin_iff,
        ofWhole_congr fun o => hobject _ d o (by omega)]

theorem codec_agreeBelow (n : ℕ) : Reader.AgreeBelow n (codecWithin n).read codec.read :=
  fun c d s hd => codecWithin_agreeBelow hd (Nat.le_refl _) c d s (Nat.lt_succ_self _)

/-- A schema is what its value is as a whole. In a text the value is read through before. -/
theorem codec_read_iff {c : Context} {d : Document} {s : SchemaRef} :
    codec.read c d = .ok s ↔
      (c.source = .text → d.check c = .ok ()) ∧ ofWhole ObjectSchema.record.read d = .ok s := by
  have hobject := ObjectSchema.recordOf_agreeBelow (codec_agreeBelow d.height)
  have hread : codec.read c d = (codecWithin (d.height + 1)).read c d := rfl
  rw [hread, read_codecWithin_iff]
  exact and_congr_right fun _ => ofWhole_congr fun o => hobject _ d o (by omega)

end SchemaRef

/-! ### Values in brackets -/

namespace Json.Spelling

/-- A list or an object. -/
def IsNested : Spelling → Prop
  | scalar .. => False
  | _ => True

theorem IsNested.optional_eq [RealReader] {α : Type} {τ : Spelling} (hτ : τ.IsNested) (r : Reader α)
    (c : Context) : r.optional c τ.document = (r c τ.document).map some := by
  match τ, hτ with
  | .list .., _ | .object .., _ => rfl

theorem IsNested.ofWhole_eq_ok_iff [RealReader] {τ : Spelling} (hτ : τ.IsNested)
    {object : Reader ObjectSchema} {s : SchemaRef} : SchemaRef.ofWhole object τ.document = .ok s ↔
      ∃ schema, object .buffered τ.document = .ok schema ∧ s = .object schema := by
  have hstring : ∀ name, Reader.string .buffered τ.document ≠ .ok name := by
    match τ, hτ with
    | .list .., _ | .object .., _ => exact fun _ => nofun
  rw [SchemaRef.ofWhole_eq_ok_iff, and_iff_right hstring]
  exact or_iff_right fun ⟨name, hname, _⟩ => hstring name hname

/-! ### Values that are refused -/

section Refused

variable {α : Type} {before gap behind : Blanks} {τ : Spelling} [RealReader]

theorem member_ne_ok {r : Record α} {f : Field} {as bs : List Member} {k : KeySpelling}
    (hkey : k.name = some f.key) (hfield : fieldOf r.fields f.key = some f)
    (h : ∀ c v, f.read c τ.document ≠ .ok v) (c : Context) (a : α) :
    r.read c (object before gap (as ++ (k, τ) :: bs) behind).document ≠ .ok a := by
  intro hread
  obtain ⟨c', -, vs, hvs, -⟩ := Record.read_object_eq_ok_iff.1 hread
  obtain ⟨v, hv⟩ := read_of_gathered hkey hfield hvs
  exact h c' v hv

theorem position_ne_ok {r : Record α} {f : Field} (as : List Spelling) {bs : List Spelling}
    (hfield : r.fields[as.length]? = some f) (h : ∀ c v, f.read c τ.document ≠ .ok v)
    (c : Context) (a : α) : r.read c (list before gap (as ++ τ :: bs) behind).document ≠ .ok a := by
  intro hread
  obtain ⟨c', -, vs, hvs, -⟩ := Record.read_list_eq_ok_iff.1 hread
  obtain ⟨v, hv⟩ := read_of_listed as hfield hvs
  exact h c' v hv

theorem item_ne_ok {r : Reader α} {as bs : List Spelling} (h : ∀ c v, r c τ.document ≠ .ok v)
    (c : Context) (vs : List α) :
    r.list c (list before gap (as ++ τ :: bs) behind).document ≠ .ok vs := by
  intro hread
  obtain ⟨c', -, hvs⟩ := bind_eq_ok_iff.1 hread
  obtain ⟨v, hv⟩ := Reader.read_of_itemsOf hvs
  exact h c' v hv

theorem IsNested.optional_ne_ok (hτ : τ.IsNested) {r : Reader α}
    (h : ∀ c v, r c τ.document ≠ .ok v) (c : Context) (o : Option α) :
    r.optional c τ.document ≠ .ok o := by
  intro hread
  rw [hτ.optional_eq, Reader.map_eq_ok_iff] at hread
  obtain ⟨v, hv, -⟩ := hread
  exact h c v hv

theorem IsNested.schema_ne_ok (hτ : τ.IsNested)
    (h : ∀ c o, ObjectSchema.record.read c τ.document ≠ .ok o) (c : Context) (s : SchemaRef) :
    SchemaRef.codec.read c τ.document ≠ .ok s := by
  intro hread
  obtain ⟨o, ho, -⟩ := hτ.ofWhole_eq_ok_iff.1 (SchemaRef.codec_read_iff.1 hread).2
  exact h .buffered o ho

end Refused

end Json.Spelling

/-! ### Changes of one object -/

/-- The change is made to one object that is read as a record, inside of a value that a reader
reads from a source. What is inside of a schema is read from a buffer. -/
inductive Within (change : Change) :
    Source → {α : Type} → Reader α → Spelling → Spelling → Prop
  | record {s : Source} {α : Type} {r : Record α} {before gap behind : Blanks}
      {ms ms' : List Member} (h : change s r.fields ms ms') :
      Within change s r.read (.object before gap ms behind) (.object before gap ms' behind)
  | member {s : Source} {α : Type} {r : Record α} {before gap behind : Blanks} (f : Field)
      (as bs : List Member) {k : KeySpelling} {τ τ' : Spelling} (hkey : k.name = some f.key)
      (hfield : fieldOf r.fields f.key = some f) (h : Within change s f.read τ τ') :
      Within change s r.read (.object before gap (as ++ (k, τ) :: bs) behind)
        (.object before gap (as ++ (k, τ') :: bs) behind)
  | position {s : Source} {α : Type} {r : Record α} {before gap behind : Blanks} (f : Field)
      (as bs : List Spelling) {τ τ' : Spelling} (hfield : r.fields[as.length]? = some f)
      (h : Within change s f.read τ τ') :
      Within change s r.read (.list before gap (as ++ τ :: bs) behind)
        (.list before gap (as ++ τ' :: bs) behind)
  | item {s : Source} {α : Type} {r : Reader α} {before gap behind : Blanks}
      (as bs : List Spelling) {τ τ' : Spelling} (h : Within change s r τ τ') :
      Within change s r.list (.list before gap (as ++ τ :: bs) behind)
        (.list before gap (as ++ τ' :: bs) behind)
  | optional {s : Source} {α : Type} {r : Reader α} {τ τ' : Spelling}
      (h : Within change s r τ τ') : Within change s r.optional τ τ'
  | schema {s : Source} {τ τ' : Spelling}
      (h : Within change .buffered ObjectSchema.record.read τ τ') :
      Within change s SchemaRef.codec.read τ τ'

namespace Within

variable {change : Change} {s : Source} {α : Type} {r : Reader α} {τ τ' : Spelling}

theorem isNested (h : Within change s r τ τ') : τ.IsNested ∧ τ'.IsNested := by
  induction h with
  | record | member | position | item => exact ⟨trivial, trivial⟩
  | optional _ ih | schema _ ih => exact ih

variable [RealReader]

/-- What could be read through can be read through again. -/
theorem readable (hchange : Harmless change) (h : Within change s r τ τ') (hs : s ≠ .text)
    (hτ : τ.Readable) : τ'.Readable := by
  induction h with
  | record h =>
      obtain ⟨hnames, hread⟩ := readable_object_iff.1 hτ
      exact readable_object_iff.2 ⟨hchange.names h hnames, hchange.readable h hs hread⟩
  | member _ _ _ _ _ _ ih =>
      obtain ⟨hnames, hread⟩ := readable_object_iff.1 hτ
      obtain ⟨hhere, hothers⟩ := forall_mem_insert.1 hread
      exact readable_object_iff.2 ⟨forall_mem_insert.2 (forall_mem_insert.1 hnames),
        forall_mem_insert.2 ⟨ih hs hhere, hothers⟩⟩
  | position _ _ _ _ _ ih | item _ _ _ ih =>
      obtain ⟨hhere, hothers⟩ := forall_mem_insert.1 (readable_list_iff.1 hτ)
      exact readable_list_iff.2 (forall_mem_insert.2 ⟨ih hs hhere, hothers⟩)
  | optional _ ih => exact ih hs hτ
  | schema _ ih => exact ih nofun hτ

/-- A change that opens no bracket deeper inside of one object opens none deeper around it. -/
theorem height_le (hchange : Level change) (h : Within change s r τ τ') :
    τ'.height ≤ τ.height := by
  induction h with
  | record h =>
      have hms := hchange h _ (membersHeight_le_iff.1 (Nat.le_refl _))
      exact Nat.succ_le_succ (membersHeight_le_iff.2 hms)
  | member _ _ _ _ _ _ ih =>
      obtain ⟨hhere, hothers⟩ := forall_mem_insert.1 (membersHeight_le_iff.1 (Nat.le_refl _))
      exact Nat.succ_le_succ
        (membersHeight_le_iff.2 (forall_mem_insert.2 ⟨Nat.le_trans ih hhere, hothers⟩))
  | position _ _ _ _ _ ih | item _ _ _ ih =>
      obtain ⟨hhere, hothers⟩ := forall_mem_insert.1 (itemsHeight_le_iff.1 (Nat.le_refl _))
      exact Nat.succ_le_succ
        (itemsHeight_le_iff.2 (forall_mem_insert.2 ⟨Nat.le_trans ih hhere, hothers⟩))
  | optional _ ih | schema _ ih => exact ih

/-- Where a change is harmless and there is room for its brackets, the reader gives what it gave
before. -/
theorem follows (hchange : Harmless change) (h : Within change s r τ τ') :
    ∀ {c : Context}, c.source = s → Level change ∨ c.Fits τ'.height → r.Follows c τ τ' := by
  induction h with
  | record h =>
      intro c hs hroom a hread
      obtain ⟨c', henter, vs, hvs, rfl⟩ := Record.read_object_eq_ok_iff.1 hread
      have hvs' := gathered_imp (fun _ _ hf _ => hchange.gets h hf) (hchange.names h) hvs
      exact Record.read_object_eq_ok_iff.2 ⟨c', henter, vs, hvs', rfl⟩
  | member _ _ _ hkey hfield _ ih =>
      intro c hs hroom a hread
      obtain ⟨c', henter, vs, hvs, rfl⟩ := Record.read_object_eq_ok_iff.1 hread
      have hroom' := hroom.imp_right fun h => (forall_mem_insert.1 ((fits_object_iff henter).1 h)).1
      have hvs' := gathered_replace hkey hfield
        (ih ((Context.source_of_enter henter).trans hs) hroom') hvs
      exact Record.read_object_eq_ok_iff.2 ⟨c', henter, vs, hvs', rfl⟩
  | position _ _ _ hfield _ ih =>
      intro c hs hroom a hread
      obtain ⟨c', henter, vs, hvs, rfl⟩ := Record.read_list_eq_ok_iff.1 hread
      have hroom' := hroom.imp_right fun h => (forall_mem_insert.1 ((fits_list_iff henter).1 h)).1
      have hvs' := listed_replace _ hfield
        (ih ((Context.source_of_enter henter).trans hs) hroom') hvs
      exact Record.read_list_eq_ok_iff.2 ⟨c', henter, vs, hvs', rfl⟩
  | item _ _ _ ih =>
      intro c hs hroom as hread
      obtain ⟨c', henter, has⟩ := bind_eq_ok_iff.1 hread
      have hroom' := hroom.imp_right fun h => (forall_mem_insert.1 ((fits_list_iff henter).1 h)).1
      have has' := Reader.itemsOf_replace
        (ih ((Context.source_of_enter henter).trans hs) hroom') has
      exact bind_eq_ok_iff.2 ⟨c', henter, has'⟩
  | optional h ih =>
      intro c hs hroom a hread
      rw [h.isNested.1.optional_eq, Reader.map_eq_ok_iff] at hread
      rw [h.isNested.2.optional_eq, Reader.map_eq_ok_iff]
      obtain ⟨b, hb, rfl⟩ := hread
      exact ⟨b, ih hs hroom b hb, rfl⟩
  | @schema s τ τ' h ih =>
      intro c hs hroom a hread
      obtain ⟨hcheck, hwhole⟩ := SchemaRef.codec_read_iff.1 hread
      refine SchemaRef.codec_read_iff.2 ⟨fun htext => ?_, ?_⟩
      · obtain ⟨hread, hfits⟩ := check_document_iff.1 (hcheck htext)
        refine check_document_iff.2 ⟨h.readable hchange nofun hread, ?_⟩
        exact hroom.elim (fun hlevel => hfits.mono (h.height_le hlevel)) id
      · obtain ⟨schema, hschema, rfl⟩ := h.isNested.1.ofWhole_eq_ok_iff.1 hwhole
        have hbuffered : Context.buffered.Fits τ'.height := nofun
        exact h.isNested.2.ofWhole_eq_ok_iff.2
          ⟨schema, ih rfl (.inr hbuffered) schema hschema, rfl⟩

/-- Where a change is fatal the reader gives nothing. -/
theorem ne_ok (hchange : Fatal change) (h : Within change s r τ τ') :
    ∀ (c : Context) (a : α), r c τ'.document ≠ .ok a := by
  induction h with
  | record h =>
      intro c a hread
      obtain ⟨c', -, vs, hvs, -⟩ := Record.read_object_eq_ok_iff.1 hread
      obtain ⟨key, f, hf, hnothing⟩ := hchange h
      obtain ⟨v, hv⟩ := gets_of_gathered hvs hf
      exact hnothing c' v hv
  | member _ _ _ hkey hfield _ ih => exact member_ne_ok hkey hfield ih
  | position _ _ _ hfield _ ih => exact position_ne_ok _ hfield ih
  | item _ _ _ ih => exact item_ne_ok ih
  | optional h ih => exact h.isNested.2.optional_ne_ok ih
  | schema h ih => exact h.isNested.2.schema_ne_ok ih

end Within

/-! ### Descriptions -/

namespace Model

/-- A description that is read is read as the same one with the members of an object in another
order, with a member more that no field knows, or with a null more or less for an optional field,
and it is refused if a known key is repeated; and this in every record, however deep. A member
that no field knows has a key that names characters, and it may hold any value that finds room,
but inside of a schema, which is read through, its numbers have to be representable and its texts
have to name characters. -/
theorem ofText_ignores_form [RealReader] {text : String} {m : Model} (h : ofText text = .ok m) :
    (∃ τ : Spelling, τ.Spells text) ∧
      ∀ (τ τ' : Spelling) (text' : String), τ.Spells text → τ'.Spells text' →
        (Within Permuted .text record.read τ τ' → ofText text' = .ok m) ∧
          (Within (Inserted fun s σ => s ≠ .text → σ.Readable) .text record.read τ τ' →
            τ'.height ≤ depthLimit → ofText text' = .ok m) ∧
          (Within Nulled .text record.read τ τ' → ofText text' = .ok m) ∧
          (Within Repeated .text record.read τ τ' → ∀ m' : Model, ofText text' ≠ .ok m') := by
  refine ⟨exists_spells h, fun τ τ' text' hτ hτ' => ?_⟩
  have hread := (hτ.readText_eq_ok_iff record_placeless).1 h
  have hread' : ∀ m', ofText text' = .ok m' ↔ record.read .ofText τ'.document = .ok m' :=
    fun m' => hτ'.readText_eq_ok_iff record_placeless
  refine ⟨fun hchange => ?_, fun hchange hheight => ?_, fun hchange => ?_, fun hchange m' => ?_⟩
  · exact (hread' m).2 (hchange.follows permuted_harmless rfl (.inl permuted_level) m hread)
  · have hroom : Context.ofText.Fits τ'.height := fun _ => hheight
    exact (hread' m).2
      (hchange.follows (inserted_harmless fun _ _ h => h) rfl (.inr hroom) m hread)
  · exact (hread' m).2 (hchange.follows nulled_harmless rfl (.inl nulled_level) m hread)
  · exact fun hok => hchange.ne_ok repeated_fatal .ofText m' ((hread' m').1 hok)

/-- A short description with one inline schema in it, by the members of the schema. -/
def briefSpelling (ms : List Member) : Spelling :=
  .object .none .none
    [(.plain "@context" (by decide), .plain "c" (by decide)),
      (.plain "@id" (by decide), .plain "i" (by decide)),
      (.plain "@type" (by decide), .plain "t" (by decide)),
      (.plain "displayName" (by decide), .plain "d" (by decide)),
      (.plain "description" (by decide), .plain "e" (by decide)),
      (.plain "telemetry" (by decide), .list .none .none
        [.object .none .none
          [(.plain "name" (by decide), .plain "n" (by decide)),
            (.plain "schema" (by decide), .object .none .none ms .none)] .none] .none)]
    .none

def briefText (inside : String) : String :=
  "\x7b\"@context\":\"c\",\"@id\":\"i\",\"@type\":\"t\",\"displayName\":\"d\"," ++
    "\"description\":\"e\",\"telemetry\":[\x7b\"name\":\"n\",\"schema\":\x7b" ++ inside ++
    "\x7d\x7d]\x7d"

def brief : Model :=
  { new "i" "d" "e" with
    context := "c"
    kind := "t"
    telemetry := [⟨"n", .object ⟨some "s", "Object", none, []⟩, none, none, none⟩] }

theorem within_briefSpelling {change : Change} {ms ms' : List Member}
    (h : change .buffered ObjectSchema.record.fields ms ms') :
    Within change .text record.read (briefSpelling ms) (briefSpelling ms') := by
  have hobject : Within change .buffered ObjectSchema.record.read
      (.object .none .none ms .none) (.object .none .none ms' .none) := .record h
  refine .member (.list "telemetry" Telemetry.record.codec) [_, _, _, _, _] [] (by decide) rfl ?_
  refine .item [] [] ?_
  exact .member (.required "schema" SchemaRef.codec) [_] [] (by decide) rfl (.schema hobject)

def briefMembers : List Member :=
  [(.plain "@id" (by decide), .plain "s" (by decide)),
    (.plain "@type" (by decide), .plain "Object" (by decide))]

theorem briefSpelling_spells : (briefSpelling briefMembers).Spells
    (briefText "\"@id\":\"s\",\"@type\":\"Object\"") :=
  spells_of_eq (by decide +kernel)

open scoped Concrete

theorem ofText_briefText :
    ofText (briefText "\"@id\":\"s\",\"@type\":\"Object\"") = .ok brief :=
  (briefSpelling_spells.readText_eq_ok_iff record_placeless).2 (by decide +kernel)

/-- An inline schema in four other forms. The last one says its identifier twice. -/
theorem ofText_ignores_form_brief :
    ofText (briefText "\"@id\":\"s\",\"@type\":\"Object\"") = .ok brief ∧
      ofText (briefText "\"@type\":\"Object\",\"@id\":\"s\"") = .ok brief ∧
      ofText (briefText "\"x\":[true],\"@id\":\"s\",\"@type\":\"Object\"") = .ok brief ∧
      ofText (briefText "\"displayName\":null,\"@id\":\"s\",\"@type\":\"Object\"") = .ok brief ∧
      ∀ m, ofText (briefText "\"@id\":null,\"@id\":\"s\",\"@type\":\"Object\"") ≠ .ok m := by
  obtain ⟨-, hforms⟩ := ofText_ignores_form ofText_briefText
  refine ⟨ofText_briefText, ?_, ?_, ?_, ?_⟩
  · have hpermuted : Permuted .buffered ObjectSchema.record.fields briefMembers
        briefMembers.reverse := briefMembers.reverse_perm.symm
    exact (hforms _ _ _ briefSpelling_spells (spells_of_eq (by decide +kernel))).1
      (within_briefSpelling hpermuted)
  · have hinserted : Inserted (fun s σ => s ≠ .text → σ.Readable) .buffered
        ObjectSchema.record.fields briefMembers
        ((.plain "x" (by decide), .list .none .none [.scalar .none (.boolean true) .none] .none) ::
          briefMembers) := .insert [] briefMembers rfl rfl fun _ => ⟨trivial, trivial⟩
    exact (hforms _ _ _ briefSpelling_spells (spells_of_eq (by decide +kernel))).2.1
      (within_briefSpelling hinserted) (by decide)
  · have hnulled : Nulled .buffered ObjectSchema.record.fields briefMembers
        ((.plain "displayName" (by decide), .scalar .none .null .none) :: briefMembers) :=
      .add [] briefMembers (f := .optional "displayName" .string) rfl rfl ⟨_, _, _, rfl⟩ (by decide)
    exact (hforms _ _ _ briefSpelling_spells (spells_of_eq (by decide +kernel))).2.2.1
      (within_briefSpelling hnulled)
  · have hrepeated : Repeated .buffered ObjectSchema.record.fields briefMembers
        ((.plain "@id" (by decide), .scalar .none .null .none) :: briefMembers) :=
      .again [] briefMembers rfl (by decide) ⟨_, List.mem_cons_self, rfl⟩
    exact (hforms _ _ _ briefSpelling_spells (spells_of_eq (by decide +kernel))).2.2.2
      (within_briefSpelling hrepeated)

/-- Half of a pair of units. No reader asks whether a text has it that is passed over. -/
def loneSurrogate : Spelling :=
  .scalar .none (.text [.unit ⟨'d', 13, by decide⟩ ⟨'8', 8, by decide⟩ ⟨'0', 0, by decide⟩
    ⟨'0', 0, by decide⟩]) .none

/-- Inside of a schema a text counts also under a key that no field knows. -/
theorem not_every_insertion_ignored :
    ¬ ∀ (text text' : String) (m : Model) (τ τ' : Spelling), ofText text = .ok m →
      τ.Spells text → τ'.Spells text' →
        Within (Inserted fun _ σ => σ.Representable) .text record.read τ τ' →
          τ'.height ≤ depthLimit → ofText text' = .ok m := by
  intro hall
  let ms : List Member := (.plain "x" (by decide), loneSurrogate) :: briefMembers
  have hinserted : Inserted (fun _ σ => σ.Representable) .buffered ObjectSchema.record.fields
      briefMembers ms := .insert [] briefMembers rfl rfl trivial
  have hspells : (briefSpelling ms).Spells
      (briefText "\"x\":\"\\ud800\",\"@id\":\"s\",\"@type\":\"Object\"") :=
    spells_of_eq (by decide +kernel)
  have hread := (hspells.readText_eq_ok_iff record_placeless).1
    (hall _ _ brief _ _ ofText_briefText briefSpelling_spells hspells
      (within_briefSpelling hinserted) (by decide))
  have hrefused : record.read .ofText (briefSpelling ms).document ≠ .ok brief := by decide +kernel
  exact hrefused hread

end Model

end DeviceTwin
