import DeviceTwin.Json.Tagged
import DeviceTwin.Proofs.Json.Placeless

/-!
# Tagged variants are read back, wherever the tag stands

An object of a tagged type is read through for its tag first and then read once more for the
fields of the variant. Neither reading minds where the tag stands: the first one finds it
among the members (`Tagged.readThrough_eq_ok_iff`), and the second one passes over it, since
no field has its key (`Draft.acceptAll_passed`).

The members of two texts stand at different places, which does not count, as the readers of the
fields do not mind places (`Tagged.placeless`).
-/

namespace DeviceTwin.Json

open DeviceTwin.Number

/-! ### Passing over -/

mutual

theorem Document.Holds.skip : ∀ {d : Document} {j : Json}, d.Holds j → d.skip = .ok ()
  | _, _, .null _ _ | _, _, .boolean _ _ _ | _, _, .integer _ _ _ | _, _, .real _ _ _
  | _, _, .text _ _ _ => rfl
  | _, _, .list _ h => Items.Hold.skip h
  | _, _, .object _ h => Members.Hold.skip h

theorem Items.Hold.skip :
    ∀ {items : Items} {js : List Json}, items.Hold js → Document.skipItems items = .ok ()
  | _, _, .nil _ => rfl
  | _, _, .cons h hmore => by
      rw [Document.skipItems, h.skip, ok_bind]
      exact Items.Hold.skip hmore

theorem Members.Hold.skip :
    ∀ {members : Members} {es : List (String × Json)}, members.Hold es →
      Document.skipMembers members = .ok ()
  | _, _, .nil _ => rfl
  | _, _, .cons h hmore => by
      rw [Document.skipMembers, h.skip, ok_bind]
      exact Members.Hold.skip hmore

end

/-! ### A value as a document holds itself -/

mutual

theorem toDocument_holds : ∀ {j : Json}, j.Bounded → j.toDocument.Holds j
  | null, _ => .null [] []
  | boolean b, _ => .boolean [] [] b
  | integer n, h => by
      have hwide : IsWide64 n := h
      rw [toDocument, numberOf, dif_pos hwide]
      exact .integer [] [] ⟨n, hwide⟩
  | real x, _ => .real [] [] x
  | text s, _ => .text [] [] s
  | list _, h => .list [] (toItems_hold h)
  | object _, h => .object [] (toMembers_hold h)

theorem toItems_hold : ∀ {js : List Json}, BoundedItems js → (toItems js).Hold js
  | [], _ => .nil []
  | _ :: _, h => .cons (toDocument_holds h.1) (toItems_hold h.2)

theorem toMembers_hold : ∀ {es : List (String × Json)}, BoundedEntries es → (toMembers es).Hold es
  | [], _ => .nil []
  | (_, _) :: _, h => .cons (toDocument_holds h.1) (toMembers_hold h.2)

end

theorem wide_object_moved [RealReader] {e : String × Json} {before behind : List (String × Json)} :
    (object (before ++ e :: behind)).Wide ↔ (object (e :: before ++ behind)).Wide := by
  have hperm : (before ++ e :: behind).Perm (e :: before ++ behind) := List.perm_middle
  exact wideEntries_iff.trans ((forall_congr' fun _ => imp_congr_left hperm.mem_iff).trans
    wideEntries_iff.symm)

/-- A text is read as the value that it was written from. -/
theorem Reader.Placeless.readText_eq_ok_iff [RealReader] {α : Type} {r : Reader α}
    (hr : r.Placeless) {j : Json} {l : Layout} (hl : l.IsPlain) (hj : j.Wide) {a : α} :
    r.readText (j.toText l) = .ok a ↔ r .ofText j.toDocument = .ok a := by
  have hdoc := Document.ofText_write hl hj
  rw [Reader.readText_eq_ok_iff, hdoc.stop, hr.of_holds hdoc.holds]
  exact and_iff_left rfl

/-! ### Members that no field wants -/

namespace Draft

variable {fs : List Field}

/-- A member that is none of the fields is passed over, wherever it stands. -/
theorem accept_passed {c : Context} {key : String} {stop : List Char} {d : Document}
    (hd : d.skip = .ok ()) :
    ∀ {fs : List Field} (draft : Draft fs), key ∉ fs.map Field.key →
      accept c key stop d fs draft = .ok draft
  | [], (), _ => by
      rw [accept, hd]
      rfl
  | f :: fs, (slot, slots), hkey => by
      obtain ⟨hne, hkey⟩ := not_or.1 (mt List.mem_cons.2 hkey)
      rw [accept.eq_def]
      simp only [if_neg hne, accept_passed hd slots hkey]
      rfl

theorem acceptAll_passed {c : Context} {key : String} {j : Json} (hj : j.Bounded)
    (hkey : key ∉ fs.map Field.key) (before behind : List (String × Json)) (draft : Draft fs) :
    acceptAll c fs (toMembers (before ++ (key, j) :: behind)) draft =
      acceptAll c fs (toMembers (before ++ behind)) draft := by
  induction before generalizing draft with
  | nil =>
      have hpassed : accept c key [] j.toDocument fs draft = .ok draft :=
        accept_passed (toDocument_holds hj).skip draft hkey
      simp only [List.nil_append, toMembers, acceptAll, ok_bind, hpassed]
  | cons e before ih =>
      simp only [List.cons_append, toMembers, acceptAll, ok_bind, ih]

end Draft

/-! ### Variants -/

namespace Variant

variable {α : Type} {v : Variant α} {a : α}

theorem ofMembers_bare (hv : ∀ f ∈ v.fields, f.read.Placeless) {members : Members} :
    v.ofMembers members.bare = .ok a ↔ v.ofMembers members = .ok a := by
  refine Slots.ofMembers_eq_ok_iff.trans (Iff.trans ?_ Slots.ofMembers_eq_ok_iff.symm)
  simp only [Slots.gathered_bare hv]

theorem ofItems_bare (hv : ∀ f ∈ v.fields, f.read.Placeless) {items : Items} :
    v.ofItems items.bare = .ok a ↔ v.ofItems items = .ok a := by
  refine Slots.ofItems_eq_ok_iff.trans (Iff.trans ?_ Slots.ofItems_eq_ok_iff.symm)
  simp only [Slots.listed_bare hv]

/-- The fields of a variant do not mind a member with another key. -/
theorem ofMembers_passed {key : String} {j : Json} (hj : j.Bounded)
    (hkey : key ∉ v.fields.map Field.key) (before behind : List (String × Json)) :
    v.ofMembers (toMembers (before ++ (key, j) :: behind)) =
      v.ofMembers (toMembers (before ++ behind)) := by
  rw [ofMembers, ofMembers, Draft.acceptAll_passed hj hkey]

/-- The fields of a variant are read back from behind the tag. -/
theorem ofMembers_restored {key : String} {tag : Json} {slots : Slots v.fields} (htag : tag.Bounded)
    (hkey : key ∉ v.fields.map Field.key) (hnodup : (v.fields.map Field.key).Nodup)
    (hslots : Slots.Restored v.fields slots) :
    v.ofMembers (toMembers ((key, tag) :: Slots.toMembers v.fields slots)) =
      .ok (v.build slots) := by
  have hpassed := ofMembers_passed htag hkey [] (Slots.toMembers v.fields slots)
  rw [List.nil_append, List.nil_append] at hpassed
  obtain ⟨draft, stop, haccept, hfinish⟩ :=
    Draft.acceptAll_reads (c := .buffered) hslots.spelled hnodup
      (toMembers_hold (Slots.bounded_toMembers hslots)) fun hsource => absurd hsource (by decide)
  rw [hpassed, ofMembers]
  exact bind_eq_ok_iff.2 ⟨_, haccept, bind_eq_ok_iff.2 ⟨slots, hfinish stop, rfl⟩⟩

end Variant

namespace Tagged

variable {α : Type} {t : Tagged α} {c : Context}

/-! ### Places -/

theorem readTag_bare (d : Document) (i : Fin t.variants.length) :
    t.readTag d.bare = .ok i ↔ t.readTag d = .ok i := by
  match d with
  | .scalar _ _ (.text s) =>
      simp only [Document.bare, Scalar.bare, readTag, bind_eq_ok_iff, known_toOption_eq_ok_iff]
      refine exists_congr fun name => and_congr_right fun _ => ?_
      cases t.variants.findFinIdx? fun v => v.tag == name with
      | some _ => exact Iff.rfl
      | none => exact error_eq_ok_iff_error
  | .scalar _ _ .null | .scalar _ _ (.boolean _) | .scalar _ _ (.number _) | .list .. | .object ..
  | .broken .. => exact error_eq_ok_iff_error

theorem readThrough_bare :
    ∀ (members : Members) (found : Option (Fin t.variants.length)) (i : Fin t.variants.length),
      t.readThrough c found members.bare = .ok i ↔ t.readThrough c found members = .ok i
  | .close _, none, _ => error_eq_ok_iff_error
  | .close _, some _, _ => Iff.rfl
  | .member key d more, found, i => by
      simp only [Members.bare, Key.bare, readThrough, bind_eq_ok_iff, known_toOption_eq_ok_iff]
      refine exists_congr fun k => and_congr_right fun _ => ?_
      split_ifs
      · cases found with
        | some _ => exact error_eq_ok_iff_error
        | none => simp only [bind_eq_ok_iff, readTag_bare, readThrough_bare more]
      · simp only [bind_eq_ok_iff, d.check_bare, readThrough_bare more]
  | .stray _, _, _ | .trailingComma _, _, _ | .endAfterComma, _, _ | .noKey _, _, _
  | .noColon _ _, _, _ | .brokenKey _ _, _, _ | .unfinished, _, _ => Iff.rfl

/-- A tagged type does not depend on places if the fields of its variants do not. -/
theorem placeless (hfs : ∀ v ∈ t.variants, ∀ f ∈ v.fields, f.read.Placeless) :
    t.read.Placeless := by
  intro c d a
  match d with
  | .object start members =>
      refine (Context.enter_bind_eq_ok_iff [] start).trans ?_
      simp only [read, bind_eq_ok_iff, readThrough_bare]
      refine exists_congr fun c' => and_congr_right fun _ => ?_
      refine exists_congr fun i => and_congr_right fun _ => ?_
      exact Variant.ofMembers_bare (hfs t.variants[i] (List.getElem_mem i.isLt))
  | .list start (.item d more) =>
      refine (Context.enter_bind_eq_ok_iff [] start).trans ?_
      simp only [Items.bare, read, bind_eq_ok_iff, readTag_bare, Items.check_bare more]
      refine exists_congr fun c' => and_congr_right fun _ => ?_
      refine exists_congr fun i => and_congr_right fun _ => ?_
      refine exists_congr fun _ => and_congr_right fun _ => ?_
      exact Variant.ofItems_bare (hfs t.variants[i] (List.getElem_mem i.isLt))
  | .list start (.close _) =>
      refine (Context.enter_bind_eq_ok_iff [] start).trans ?_
      simp only [Items.bare, read, bind_eq_ok_iff]
      refine exists_congr fun c' => and_congr_right fun _ => error_eq_ok_iff_error
  | .list start (.stray _) | .list start (.trailingComma _) | .list start .endAfterComma
  | .list start .unfinished => exact Context.enter_bind_eq_ok_iff [] start
  | .scalar .. | .broken .. => exact error_eq_ok_iff_error

/-! ### The tag among the members -/

/-- A member that is not the tag and can be read through. -/
def Beside (t : Tagged α) (c : Context) (e : String × Json) : Prop :=
  e.1 ≠ t.key ∧ e.2.toDocument.check c = .ok ()

/-- Behind the tag no second one may come. -/
theorem readThrough_some {es : List (String × Json)} {i i' : Fin t.variants.length} :
    t.readThrough c (some i) (toMembers es) = .ok i' ↔ i = i' ∧ ∀ e ∈ es, t.Beside c e := by
  induction es with
  | nil => simp [toMembers, readThrough]
  | cons e es ih =>
      obtain ⟨k, j⟩ := e
      rw [List.forall_mem_cons]
      simp only [toMembers, readThrough, ok_bind]
      by_cases hkey : k = t.key
      · rw [if_pos hkey]
        exact ⟨nofun, fun h => absurd hkey h.2.1.1⟩
      · rw [if_neg hkey, bind_eq_ok_iff]
        constructor
        · rintro ⟨⟨⟩, hcheck, h⟩
          obtain ⟨rfl, hes⟩ := ih.1 h
          exact ⟨rfl, ⟨hkey, hcheck⟩, hes⟩
        · rintro ⟨hi, ⟨-, hcheck⟩, hes⟩
          exact ⟨(), hcheck, ih.2 ⟨hi, hes⟩⟩

/-- The tag is found wherever it stands, if it is the only one. -/
theorem readThrough_eq_ok_iff (before behind : List (String × Json)) {tag : Json}
    {i : Fin t.variants.length} :
    t.readThrough c none (toMembers (before ++ (t.key, tag) :: behind)) = .ok i ↔
      t.readTag tag.toDocument = .ok i ∧ ∀ e ∈ before ++ behind, t.Beside c e := by
  induction before with
  | nil =>
      simp only [List.nil_append, toMembers, readThrough, ok_bind, if_pos]
      rw [bind_eq_ok_iff]
      constructor
      · rintro ⟨i', htag, h⟩
        obtain ⟨rfl, hes⟩ := readThrough_some.1 h
        exact ⟨htag, hes⟩
      · rintro ⟨htag, hes⟩
        exact ⟨i, htag, readThrough_some.2 ⟨rfl, hes⟩⟩
  | cons e before ih =>
      obtain ⟨k, j⟩ := e
      rw [List.cons_append, List.cons_append, List.forall_mem_cons]
      simp only [toMembers, readThrough, ok_bind]
      by_cases hkey : k = t.key
      · rw [if_pos hkey]
        constructor
        · intro h
          obtain ⟨i', -, h⟩ := bind_eq_ok_iff.1 h
          have hlater := (readThrough_some.1 h).2 (t.key, tag) (by simp)
          exact absurd rfl hlater.1
        · exact fun h => absurd hkey h.2.1.1
      · rw [if_neg hkey, bind_eq_ok_iff]
        constructor
        · rintro ⟨⟨⟩, hcheck, h⟩
          obtain ⟨htag, hes⟩ := ih.1 h
          exact ⟨htag, ⟨hkey, hcheck⟩, hes⟩
        · rintro ⟨htag, ⟨-, hcheck⟩, hes⟩
          exact ⟨(), hcheck, ih.2 ⟨htag, hes⟩⟩

/-- What is read of an object does not depend on the place of the tag. -/
theorem read_moved (hkeys : ∀ v ∈ t.variants, t.key ∉ v.fields.map Field.key) {tag : Json}
    (htag : tag.Bounded) (before behind : List (String × Json)) {a : α} :
    t.read c (Json.object (before ++ (t.key, tag) :: behind)).toDocument = .ok a ↔
      t.read c (Json.object ((t.key, tag) :: before ++ behind)).toDocument = .ok a := by
  have hfields : ∀ i : Fin t.variants.length,
      t.variants[i].ofMembers (toMembers (before ++ (t.key, tag) :: behind)) =
        t.variants[i].ofMembers (toMembers ((t.key, tag) :: before ++ behind)) := by
    intro i
    have hkey := hkeys t.variants[i] (List.getElem_mem i.isLt)
    rw [Variant.ofMembers_passed htag hkey before behind]
    exact (Variant.ofMembers_passed htag hkey [] (before ++ behind)).symm
  have hthrough : ∀ (c : Context) (i : Fin t.variants.length),
      t.readThrough c none (toMembers (before ++ (t.key, tag) :: behind)) = .ok i ↔
        t.readThrough c none (toMembers ((t.key, tag) :: before ++ behind)) = .ok i := by
    intro c i
    exact (readThrough_eq_ok_iff before behind).trans
      (readThrough_eq_ok_iff [] (before ++ behind)).symm
  simp only [toDocument, read, bind_eq_ok_iff, hthrough, hfields]

theorem readText_moved [RealReader] (hfs : ∀ v ∈ t.variants, ∀ f ∈ v.fields, f.read.Placeless)
    (hkeys : ∀ v ∈ t.variants, t.key ∉ v.fields.map Field.key) {l : Layout} (hl : l.IsPlain)
    {tag : Json} {before behind : List (String × Json)}
    (hwide : (Json.object (before ++ (t.key, tag) :: behind)).Wide) {a : α} :
    t.read.readText ((Json.object (before ++ (t.key, tag) :: behind)).toText l) = .ok a ↔
      t.read.readText ((Json.object ((t.key, tag) :: before ++ behind)).toText l) = .ok a := by
  have hmoved : (Json.object ((t.key, tag) :: before ++ behind)).Wide :=
    wide_object_moved.1 hwide
  have htag : tag.Bounded := (wide_iff.1 hmoved.1).1
  rw [(placeless hfs).readText_eq_ok_iff hl hwide, (placeless hfs).readText_eq_ok_iff hl hmoved]
  exact read_moved hkeys htag before behind

/-- A tag names the one variant that has it. -/
theorem exists_readTag (htags : t.tags.Nodup) {v : Variant α} (hv : v ∈ t.variants) :
    ∃ i, t.readTag (Json.text v.tag).toDocument = .ok i ∧ t.variants.get i = v := by
  cases hfind : t.variants.findFinIdx? fun w => w.tag == v.tag with
  | none =>
      have hnone := List.findFinIdx?_eq_none_iff.1 hfind v hv
      exact absurd (decide_eq_true rfl) hnone
  | some i =>
      refine ⟨i, ?_, ?_⟩
      · simp only [toDocument, readTag, ok_bind, hfind]
        rfl
      · have htag := (List.findFinIdx?_eq_some_iff.1 hfind).1
        exact List.inj_on_of_nodup_map htags (List.getElem_mem i.isLt) hv (of_decide_eq_true htag)

theorem bounded_write {a : α} (hslots : Slots.Restored (t.parts a).1.fields (t.parts a).2) :
    (t.write a).Bounded :=
  ⟨trivial, Slots.bounded_toMembers hslots⟩

/-- A value whose fields are read back is read back. -/
theorem reads_write (hfs : ∀ v ∈ t.variants, ∀ f ∈ v.fields, f.read.Placeless)
    (htags : t.tags.Nodup) (hkeys : ∀ v ∈ t.variants, t.key ∉ v.fields.map Field.key)
    {a : α} (hv : (t.parts a).1 ∈ t.variants)
    (hnodup : ((t.parts a).1.fields.map Field.key).Nodup)
    (hbuild : (t.parts a).1.build (t.parts a).2 = a)
    (hslots : Slots.Restored (t.parts a).1.fields (t.parts a).2) :
    t.read.Reads (t.write a) a := by
  intro c d hd hc
  rw [write] at hd hc
  generalize t.parts a = p at hv hnodup hbuild hslots hd hc
  obtain ⟨v, slots⟩ := p
  have hkey := hkeys v hv
  have hbounded := Slots.bounded_toMembers hslots
  -- It is enough to read the value itself.
  refine ((placeless hfs).of_holds hd).2 ?_
  obtain ⟨c', henter, hc'⟩ := Context.Fits.enter hc []
  have hfits : c'.Fits (Json.entriesHeight (Slots.toMembers v.fields slots)) :=
    (Context.fits_max.1 hc').2
  have hbeside : ∀ e ∈ Slots.toMembers v.fields slots, t.Beside c' e := by
    intro e he
    refine ⟨fun heq => hkey (heq ▸ hslots.spelled.key_mem e he), ?_⟩
    exact (toDocument_holds (boundedEntries_iff.1 hbounded e he)).check
      (hfits.mono (height_le_entriesHeight he))
  obtain ⟨i, htag, hi⟩ := exists_readTag htags hv
  have hthrough := (readThrough_eq_ok_iff [] _).2 ⟨htag, hbeside⟩
  rw [toDocument, read]
  refine bind_eq_ok_iff.2 ⟨c', henter, bind_eq_ok_iff.2 ⟨i, hthrough, ?_⟩⟩
  rw [show t.variants[i] = v from hi, ← hbuild]
  exact Variant.ofMembers_restored trivial hkey hnodup hslots

end Tagged

end DeviceTwin.Json
