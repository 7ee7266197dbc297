import DeviceTwin.Defect.Form
import DeviceTwin.Proofs.Json.Tagged
import DeviceTwin.Proofs.Model.Form.Basic

/-!
# Defects are read back

Each of the nine variants of a defect is read back from what is written of it, and so is a
list of defects from its text. No field of a variant has the key of the tag, so the tag may
stand anywhere in the object of a defect.
-/

namespace DeviceTwin

open DeviceTwin.Json DeviceTwin.Json.Field DeviceTwin.Json.Codec

theorem ElementKind.get?_name (k : ElementKind) : choice.get? k.name = some (.nothing k) := by
  cases k <;> rfl

theorem ElementKind.codec_restores (k : ElementKind) : ElementKind.codec.Restores k :=
  ⟨Choice.reads_nothing k.get?_name, Reader.refuses_of_height_eq_zero rfl, trivial⟩

namespace Defect

/-- The fields of all variants are read wherever they stand. -/
theorem fields_placeless : ∀ v ∈ tagged.variants, ∀ f ∈ v.fields, f.read.Placeless := by
  have helement : ElementKind.codec.read.Placeless := ElementKind.choice.read_placeless
  have hstring : Codec.string.read.Placeless := Reader.string_placeless
  have hstrings : Codec.string.list.read.Placeless := Reader.string_placeless.list
  have hoptional : Codec.string.read.optional.Placeless := Reader.string_placeless.optional
  simp [tagged, invalidReferenceVariant, duplicateNameVariant, invalidStateTransitionVariant,
    unreachableStatesVariant, missingRequiredFieldVariant, invalidFieldValueVariant,
    invalidContextVariant, invalidDtmiVariant, circularReferenceVariant, helement, hstring,
    hstrings, hoptional]

theorem key_not_mem : ∀ v ∈ tagged.variants, tagged.key ∉ v.fields.map Field.key := by
  decide

theorem parts_mem (d : Defect) : (tagged.parts d).1 ∈ tagged.variants := by
  cases d <;> simp [tagged]

theorem build_parts (d : Defect) : (tagged.parts d).1.build (tagged.parts d).2 = d := by
  cases d <;> rfl

theorem nodup_keys : ∀ v ∈ tagged.variants, (v.fields.map Field.key).Nodup := by
  decide

/-- Every field of every variant is read back. -/
theorem parts_restored (d : Defect) :
    Slots.Restored (tagged.parts d).1.fields (tagged.parts d).2 := by
  have hstrings : ∀ ss, Codec.string.list.Restores ss :=
    fun ss => list_restores fun s _ => string_restores s
  cases d with
  | invalidReference sourceKind sourceName targetKind targetName suggestion =>
      exact ⟨required_restores _ sourceKind.codec_restores, required_restores _ (string_restores _),
        required_restores _ targetKind.codec_restores, required_restores _ (string_restores _),
        optional_string_restores _ _, trivial⟩
  | duplicateName elementKind name =>
      exact ⟨required_restores _ elementKind.codec_restores,
        required_restores _ (string_restores _), trivial⟩
  | invalidStateTransition source target reason =>
      exact ⟨required_restores _ (string_restores _), required_restores _ (string_restores _),
        required_restores _ (string_restores _), trivial⟩
  | unreachableStates initial states =>
      exact ⟨required_restores _ (string_restores _), required_restores _ (hstrings _), trivial⟩
  | missingRequiredField field => exact ⟨required_restores _ (string_restores _), trivial⟩
  | invalidFieldValue field expected actual =>
      exact ⟨required_restores _ (string_restores _), required_restores _ (string_restores _),
        required_restores _ (string_restores _), trivial⟩
  | invalidContext expected actual =>
      exact ⟨required_restores _ (string_restores _), required_restores _ (string_restores _),
        trivial⟩
  | invalidDtmi id reason =>
      exact ⟨required_restores _ (string_restores _), required_restores _ (string_restores _),
        trivial⟩
  | circularReference path => exact ⟨required_restores _ (hstrings _), trivial⟩

theorem codec_reads (d : Defect) : codec.read.Reads (codec.write d) d :=
  Tagged.reads_write fields_placeless (by decide) key_not_mem d.parts_mem (nodup_keys _ d.parts_mem)
    d.build_parts d.parts_restored

theorem itemsHeight_texts (ss : List String) : Json.itemsHeight (ss.map Json.text) = 0 := by
  induction ss with
  | nil => rfl
  | cons s ss ih => exact Nat.max_eq_zero_iff.2 ⟨rfl, ih⟩

theorem itemsReals_texts (ss : List String) : Json.itemsReals (ss.map Json.text) = [] := by
  induction ss with
  | nil => rfl
  | cons s ss ih => exact ih

/-- There are no numbers in a defect. -/
theorem codec_reals (d : Defect) : (codec.write d).reals = [] := by
  cases d with
  | invalidReference sourceKind sourceName targetKind targetName suggestion =>
      cases suggestion <;> rfl
  | unreachableStates initial states =>
      exact congrArg (· ++ []) (itemsReals_texts states)
  | circularReference path => exact congrArg (· ++ []) (itemsReals_texts path)
  | _ => rfl

theorem codec_wide [RealReader] (d : Defect) : (codec.write d).Wide :=
  Json.wide_iff.2 ⟨Tagged.bounded_write d.parts_restored, by simp [codec_reals]⟩

/-- A defect opens two brackets at once at the most, its own one and that of a list of names. -/
theorem codec_height_le (d : Defect) : (codec.write d).height ≤ 2 := by
  cases d with
  | invalidReference sourceKind sourceName targetKind targetName suggestion =>
      cases suggestion with
      | none => exact (by decide : 1 ≤ 2)
      | some name => exact (by decide : 1 ≤ 2)
  | unreachableStates initial states =>
      refine Nat.succ_le_succ (Nat.max_le.2 ⟨Nat.zero_le _, Nat.max_le.2 ⟨Nat.zero_le _, ?_⟩⟩)
      refine Nat.max_le.2 ⟨Nat.succ_le_succ (Nat.le_of_eq ?_), Nat.zero_le _⟩
      exact itemsHeight_texts states
  | circularReference path =>
      refine Nat.succ_le_succ (Nat.max_le.2 ⟨Nat.zero_le _, ?_⟩)
      refine Nat.max_le.2 ⟨Nat.succ_le_succ (Nat.le_of_eq ?_), Nat.zero_le _⟩
      exact itemsHeight_texts path
  | _ => exact (by decide : 1 ≤ 2)

/-- Where the tag of a defect stands does not matter. -/
theorem readText_moved [RealReader] {l : Layout} (hl : l.IsPlain) {tag : Json}
    {before behind : List (String × Json)}
    (hwide : (Json.object (before ++ ("kind", tag) :: behind)).Wide) {d : Defect} :
    codec.read.readText ((Json.object (before ++ ("kind", tag) :: behind)).toText l) = .ok d ↔
      codec.read.readText ((Json.object (("kind", tag) :: before ++ behind)).toText l) = .ok d :=
  Tagged.readText_moved fields_placeless key_not_mem hl hwide

/-- A defect is written with its tag in front. -/
theorem write_eq (d : Defect) :
    ∃ tag members, codec.write d = .object (("kind", .text tag) :: members) :=
  ⟨_, _, rfl⟩

theorem readText_toText [RealReader] {l : Layout} (hl : l.IsPlain) (d : Defect) :
    codec.read.readText ((codec.write d).toText l) = .ok d :=
  d.codec_reads.readText hl d.codec_wide (d.codec_height_le.trans (by decide))

end Defect

namespace Defects

theorem codec_height_le (ds : Defects) : (codec.write ds).height ≤ 3 := by
  have hitems : Json.itemsHeight (ds.map Defect.codec.write) ≤ 2 := by
    induction ds with
    | nil => exact Nat.zero_le 2
    | cons d ds ih => exact Nat.max_le.2 ⟨d.codec_height_le, ih⟩
  exact Nat.succ_le_succ hitems

theorem readText_toText [RealReader] {l : Layout} (hl : l.IsPlain) (ds : Defects) :
    codec.read.readText ((codec.write ds).toText l) = .ok ds := by
  have hreads : codec.read.Reads (codec.write ds) ds :=
    Reader.list_reads fun d _ => d.codec_reads
  have hwide : (codec.write ds).Wide :=
    Json.wideItems_iff.2 (List.forall_mem_map.2 fun d _ => d.codec_wide)
  exact hreads.readText hl hwide (ds.codec_height_le.trans (by decide))

/-- The text of a list of defects gives the list back, in its order, and the text of a defect
gives it back wherever the tag stands in it; more generally, no text of an object is read as
another defect, or no longer as one, for having its tag at another place. So different defects
have different texts. -/
theorem text_keeps_defects [RealReader] (format : OutputFormat) :
    (∀ ds : Defects, codec.read.readText ((codec.write ds).toText format.layout) = .ok ds) ∧
    (∀ d : Defect, ∃ tag members,
      Defect.codec.write d = .object (("kind", .text tag) :: members) ∧
      ∀ n, Defect.codec.read.readText ((Json.object
        (members.take n ++ ("kind", .text tag) :: members.drop n)).toText format.layout) =
          .ok d) ∧
    (∀ (d : Defect) (tag : Json) (before behind : List (String × Json)),
      (Json.object (before ++ ("kind", tag) :: behind)).Wide →
      (Defect.codec.read.readText ((Json.object
          (before ++ ("kind", tag) :: behind)).toText format.layout) = .ok d ↔
        Defect.codec.read.readText ((Json.object
          (("kind", tag) :: before ++ behind)).toText format.layout) = .ok d)) ∧
    ∀ d d' : Defect, (Defect.codec.write d).toText format.layout =
      (Defect.codec.write d').toText format.layout ↔ d = d' := by
  have hplain : format.layout.IsPlain := format.layout_isPlain
  refine ⟨readText_toText hplain, fun d => ?moved, fun d tag before behind hwide =>
    Defect.readText_moved hplain hwide, fun d d' => ⟨fun heq => ?distinct, fun h => h ▸ rfl⟩⟩
  case moved =>
    obtain ⟨tag, members, hwrite⟩ := d.write_eq
    refine ⟨tag, members, hwrite, fun n => (Defect.readText_moved hplain ?_).2 ?_⟩
    · rw [wide_object_moved, List.cons_append, List.take_append_drop, ← hwrite]
      exact d.codec_wide
    · rw [List.cons_append, List.take_append_drop, ← hwrite]
      exact d.readText_toText hplain
  case distinct =>
    have hread := d.readText_toText hplain
    rw [heq, d'.readText_toText hplain] at hread
    exact (Except.ok.inj hread).symm

open scoped Concrete

/-- The tag may stand last. -/
theorem text_keeps_defects_duplicateName :
    (Json.object ([("elementKind", .text "State"), ("name", .text "a")] ++
      ("kind", .text "duplicateName") :: [])).Wide ∧
    Defect.codec.read.readText ((Json.object
      ([("elementKind", .text "State"), ("name", .text "a")] ++
        ("kind", .text "duplicateName") :: [])).toText OutputFormat.compact.layout) =
          .ok (.duplicateName .state "a") := by
  have hwide : (Json.object ([("elementKind", .text "State"), ("name", .text "a")] ++
      ("kind", .text "duplicateName") :: [])).Wide :=
    ⟨trivial, trivial, trivial, trivial⟩
  exact ⟨hwide, ((text_keeps_defects .compact).2.2.1 _ _ _ _ hwide).2
    (Defect.readText_toText OutputFormat.compact.layout_isPlain (.duplicateName .state "a"))⟩

end Defects

end DeviceTwin
