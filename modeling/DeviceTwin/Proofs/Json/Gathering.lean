import DeviceTwin.Proofs.Json.Record

/-!
# What an object gives the fields of a record

An object is read member by member into a draft. Seen from the fields, each of them takes the
members of its key, of which there is one or none, and what is left over in the end is passed
over (`Slots.Gathered`). An object is read as a record if and only if the fields gather their
values in this way (`Record.readMembers_eq_ok_iff`), and a list if it gives them one after the
other (`Record.readItems_eq_ok_iff`). The induction is on the fields: the first one takes its
members out of the object and leaves an object to the others (`Draft.acceptAll_cons_iff`).
-/

namespace DeviceTwin.Json

/-! ### Members by their key -/

namespace Members

/-- The values that stand under a key. -/
def under (key : String) : Members → List Document
  | .member k d more => if k.text = .ok key then d :: more.under key else more.under key
  | _ => []

/-- The members that stand under other keys. -/
def without (key : String) : Members → Members
  | .member k d more =>
    if k.text = .ok key then more.without key else .member k d (more.without key)
  | members => members

/-- The members of a complete object, none of which is wanted. -/
def Passed : Members → Prop
  | .close _ => True
  | .member k d more => (∃ s, k.text = .ok s) ∧ d.skip = .ok () ∧ more.Passed
  | _ => False

theorem height_le_of_mem_under {key : String} {d : Document} :
    ∀ {members : Members}, d ∈ members.under key → d.height ≤ Document.membersHeight members
  | .member k e more, h => by
      rw [under] at h
      split_ifs at h
      · rcases List.mem_cons.1 h with rfl | h
        · exact Nat.le_max_left _ _
        · exact Nat.le_trans (height_le_of_mem_under h) (Nat.le_max_right _ _)
      · exact Nat.le_trans (height_le_of_mem_under h) (Nat.le_max_right _ _)
  | .close _, h | .stray _, h | .trailingComma _, h | .endAfterComma, h | .noKey _, h
  | .noColon _ _, h | .brokenKey _ _, h | .unfinished, h => absurd h List.not_mem_nil

theorem height_without_le (key : String) :
    ∀ members : Members,
      Document.membersHeight (members.without key) ≤ Document.membersHeight members
  | .close _ | .stray _ | .trailingComma _ | .endAfterComma | .noKey _ | .noColon _ _
  | .brokenKey _ _ | .unfinished => Nat.le_refl _
  | .member k e more => by
      have ih := height_without_le key more
      rw [without]
      split_ifs
      · exact Nat.le_trans ih (Nat.le_max_right _ _)
      · exact max_le_max_left _ ih

end Members

namespace Field

/-- The values that stand under the key of a field give it the value `v`. -/
def Gets (f : Field) (c : Context) (ds : List Document) (v : f.Value) : Prop :=
  match ds with
  | [] => f.absent = some v
  | [d] => f.read c d = .ok v
  | _ => False

/-- The values that stand under the key of a field take what a draft holds for it from `slot`
to `slot'`. -/
def Takes (f : Field) (c : Context) : List Document → Option f.Value → Option f.Value → Prop
  | [], slot, slot' => slot' = slot
  | d :: ds, slot, slot' => slot = none ∧ ∃ v, f.read c d = .ok v ∧ f.Takes c ds (some v) slot'

theorem gets_iff {f : Field} {c : Context} {ds : List Document} {v : f.Value} :
    f.Gets c ds v ↔ ∃ slot, f.Takes c ds none slot ∧ (slot.orElse fun _ => f.absent) = some v := by
  match ds with
  | [] => simp [Gets, Takes]
  | [_] => simp [Gets, Takes]
  | _ :: _ :: _ => simp [Gets, Takes]

end Field

/-! ### Drafts -/

namespace Draft

variable {c : Context} {stop : List Char}

theorem accept_first {f : Field} {fs : List Field} {stop : List Char} {d : Document}
    {slot : Option f.Value} {slots : Draft fs} {draft : Draft (f :: fs)} :
    accept c f.key stop d (f :: fs) (slot, slots) = .ok draft ↔
      slot = none ∧ ∃ v, f.read c d = .ok v ∧ draft = (some v, slots) := by
  rw [accept.eq_def]
  dsimp only
  rw [if_pos rfl]
  cases slot with
  | some v =>
      refine iff_of_false error_ne_ok ?_
      rintro ⟨h, -⟩
      cases h
  | none =>
      simp only [bind_eq_ok_iff, settled_eq_ok_iff, true_and]
      exact exists_congr fun v => and_congr_right fun _ =>
        ⟨fun h => (Except.ok.inj h).symm, fun h => congrArg Except.ok h.symm⟩

theorem accept_other {f : Field} {fs : List Field} {key : String} (hkey : key ≠ f.key)
    {stop : List Char} {d : Document} {slot : Option f.Value} {slots : Draft fs}
    {draft : Draft (f :: fs)} :
    accept c key stop d (f :: fs) (slot, slots) = .ok draft ↔
      ∃ slots', accept c key stop d fs slots = .ok slots' ∧ draft = (slot, slots') := by
  rw [accept.eq_def]
  dsimp only
  rw [if_neg hkey, bind_eq_ok_iff]
  exact exists_congr fun v => and_congr_right fun _ =>
    ⟨fun h => (Except.ok.inj h).symm, fun h => congrArg Except.ok h.symm⟩

theorem acceptAll_member_iff {fs : List Field} {key : Key} {d : Document} {more : Members}
    {draft draft' : Draft fs} :
    acceptAll c fs (.member key d more) draft = .ok (draft', stop) ↔
      ∃ k, key.text = .ok k ∧ ∃ next, accept c k key.stop d fs draft = .ok next ∧
        acceptAll c fs more next = .ok (draft', stop) := by
  simp only [acceptAll, bind_eq_ok_iff]

theorem acceptAll_noColon_ne_ok {fs : List Field} {key : Key} {rest : List Char}
    {draft draft' : Draft fs} : acceptAll c fs (.noColon key rest) draft ≠ .ok (draft', stop) := by
  simp [acceptAll, bind_eq_ok_iff]

/-- The first field takes the members of its key and leaves the others to the other fields. -/
theorem acceptAll_cons_iff {f : Field} {fs : List Field} {slot' : Option f.Value}
    {slots' : Draft fs} :
    ∀ {members : Members} {slot : Option f.Value} {slots : Draft fs},
      acceptAll c (f :: fs) members (slot, slots) = .ok ((slot', slots'), stop) ↔
        f.Takes c (members.under f.key) slot slot' ∧
          acceptAll c fs (members.without f.key) slots = .ok (slots', stop)
  | .close stop', slot, slots => by
      simp only [acceptAll, Members.under, Members.without, Field.Takes, Except.ok.injEq,
        Prod.mk.injEq, and_assoc]
      exact and_congr_left fun _ => eq_comm
  | .member key d more, slot, slots => by
      rw [acceptAll_member_iff, Members.under, Members.without]
      split_ifs with hkey
      · constructor
        · rintro ⟨k, hk, next, haccept, hmore⟩
          obtain rfl := Except.ok.inj (hkey.symm.trans hk)
          obtain ⟨hslot, v, hread, rfl⟩ := accept_first.1 haccept
          obtain ⟨htakes, hmore⟩ := acceptAll_cons_iff.1 hmore
          exact ⟨⟨hslot, v, hread, htakes⟩, hmore⟩
        · rintro ⟨⟨hslot, v, hread, htakes⟩, hmore⟩
          exact ⟨f.key, hkey, _, accept_first.2 ⟨hslot, v, hread, rfl⟩,
            acceptAll_cons_iff.2 ⟨htakes, hmore⟩⟩
      · rw [acceptAll_member_iff]
        constructor
        · rintro ⟨k, hk, next, haccept, hmore⟩
          have hne : k ≠ f.key := fun h => hkey (h ▸ hk)
          obtain ⟨slots', hother, rfl⟩ := (accept_other hne).1 haccept
          obtain ⟨htakes, hmore⟩ := acceptAll_cons_iff.1 hmore
          exact ⟨htakes, k, hk, slots', hother, hmore⟩
        · rintro ⟨htakes, k, hk, slots', hother, hmore⟩
          have hne : k ≠ f.key := fun h => hkey (h ▸ hk)
          exact ⟨k, hk, _, (accept_other hne).2 ⟨slots', hother, rfl⟩,
            acceptAll_cons_iff.2 ⟨htakes, hmore⟩⟩
  | .noColon key rest, slot, slots =>
      ⟨fun h => absurd h acceptAll_noColon_ne_ok, fun h => absurd h.2 acceptAll_noColon_ne_ok⟩
  | .stray _, _, _ | .trailingComma _, _, _ | .endAfterComma, _, _ | .noKey _, _, _
  | .brokenKey _ _, _, _ | .unfinished, _, _ => ⟨nofun, fun h => nomatch h.2⟩

/-- What no field takes is passed over. -/
theorem acceptAll_nil_iff (c : Context) :
    ∀ {members : Members},
      members.Passed ↔ ∃ draft stop, acceptAll c [] members () = .ok (draft, stop)
  | .close stop => ⟨fun _ => ⟨(), stop, rfl⟩, fun _ => trivial⟩
  | .member key d more => by
      rw [Members.Passed, acceptAll_nil_iff c]
      constructor
      · rintro ⟨⟨k, hk⟩, hskip, draft, stop, hmore⟩
        have haccept : accept c k key.stop d [] () = .ok () := bind_eq_ok_iff.2 ⟨(), hskip, rfl⟩
        exact ⟨draft, stop, acceptAll_member_iff.2 ⟨k, hk, (), haccept, hmore⟩⟩
      · rintro ⟨draft, stop, h⟩
        obtain ⟨k, hk, next, haccept, hmore⟩ := acceptAll_member_iff.1 h
        obtain ⟨⟨⟩, hskip, -⟩ := bind_eq_ok_iff.1 haccept
        exact ⟨⟨k, hk⟩, hskip, draft, stop, hmore⟩
  | .noColon key rest => ⟨False.elim, fun ⟨_, _, h⟩ => absurd h acceptAll_noColon_ne_ok⟩
  | .stray _ | .trailingComma _ | .endAfterComma | .noKey _ | .brokenKey _ _ | .unfinished =>
      ⟨False.elim, fun ⟨_, _, h⟩ => (nomatch h)⟩

theorem finish_cons_iff {f : Field} {fs : List Field} {slot : Option f.Value}
    {slots : Draft fs} {v : f.Value} {vs : Slots fs} :
    finish stop (f :: fs) (slot, slots) = .ok (v, vs) ↔
      (slot.orElse fun _ => f.absent) = some v ∧ finish stop fs slots = .ok vs := by
  rw [finish.eq_def]
  dsimp only
  split
  · rename_i hnone
    rw [hnone]
    exact ⟨nofun, fun h => nomatch h.1⟩
  · rename_i w hsome
    rw [hsome, bind_eq_ok_iff, Option.some.injEq]
    constructor
    · rintro ⟨ws, hws, h⟩
      obtain ⟨rfl, rfl⟩ := Prod.mk.inj (Except.ok.inj h)
      exact ⟨rfl, hws⟩
    · rintro ⟨rfl, hvs⟩
      exact ⟨vs, hvs, rfl⟩

end Draft

namespace Slots

/-- An object gives the fields these values. -/
def Gathered (c : Context) : (fs : List Field) → Members → Slots fs → Prop
  | [], members, () => members.Passed
  | f :: fs, members, (v, vs) =>
    f.Gets c (members.under f.key) v ∧ Gathered c fs (members.without f.key) vs

theorem gathered_iff {c : Context} :
    ∀ {fs : List Field} {members : Members} {vs : Slots fs},
      Gathered c fs members vs ↔ ∃ draft stop,
        Draft.acceptAll c fs members (.empty fs) = .ok (draft, stop) ∧
          Draft.finish stop fs draft = .ok vs
  | [], members, () => by
      refine (Draft.acceptAll_nil_iff c).trans ?_
      exact exists_congr fun _ => exists_congr fun _ => (and_iff_left rfl).symm
  | f :: fs, members, (v, vs) => by
      rw [Gathered, Field.gets_iff, gathered_iff]
      constructor
      · rintro ⟨⟨slot, htakes, hslot⟩, slots, stop, haccept, hfinish⟩
        exact ⟨(slot, slots), stop, Draft.acceptAll_cons_iff.2 ⟨htakes, haccept⟩,
          Draft.finish_cons_iff.2 ⟨hslot, hfinish⟩⟩
      · rintro ⟨⟨slot, slots⟩, stop, haccept, hfinish⟩
        obtain ⟨htakes, haccept⟩ := Draft.acceptAll_cons_iff.1 haccept
        obtain ⟨hslot, hfinish⟩ := Draft.finish_cons_iff.1 hfinish
        exact ⟨⟨slot, htakes, hslot⟩, slots, stop, haccept, hfinish⟩

/-- A list gives the fields these values, one after the other. -/
def Listed (c : Context) : (fs : List Field) → Items → Slots fs → Prop
  | [], .close _, () => True
  | f :: fs, .close stop, (v, vs) => f.absent = some v ∧ Listed c fs (.close stop) vs
  | f :: fs, .item d more, (v, vs) => f.read c d = .ok v ∧ Listed c fs more vs
  | _, _, _ => False

theorem finishItems_eq_ok_iff {c : Context} {count : ℕ} {items : Items} :
    finishItems c count items = .ok () ↔ ∃ stop, items = .close stop := by
  match items with
  | .close stop => exact ⟨fun _ => ⟨stop, rfl⟩, fun _ => rfl⟩
  | .item d more =>
      refine ⟨fun h => ?_, fun ⟨_, h⟩ => nomatch h⟩
      rw [finishItems] at h
      split at h <;> exact nomatch h
  | .stray [] | .stray (_ :: _) | .trailingComma _ | .endAfterComma | .unfinished =>
      exact ⟨nofun, fun ⟨_, h⟩ => nomatch h⟩

theorem listed_iff (c : Context) (title : String) (count : ℕ) :
    ∀ {fs : List Field} {items : Items} {vs : Slots fs} (taken : ℕ),
      Listed c fs items vs ↔ ∃ stop, ofItems c title count taken fs items = .ok (vs, .close stop)
  | [], .close stop, (), _ => ⟨fun _ => ⟨stop, rfl⟩, fun _ => trivial⟩
  | [], .item .., _, _ | [], .stray _, _, _ | [], .trailingComma _, _, _ | [], .endAfterComma, _, _
  | [], .unfinished, _, _ => ⟨False.elim, fun ⟨_, h⟩ => (nomatch h)⟩
  | f :: fs, .close stop, (v, vs), taken => by
      rw [Listed, listed_iff c title count taken]
      cases habsent : f.absent with
      | none =>
          simp only [ofItems, habsent]
          exact ⟨nofun, fun ⟨_, h⟩ => nomatch h⟩
      | some w =>
          simp only [ofItems, habsent, bind_eq_ok_iff]
          constructor
          · rintro ⟨hvalue, stop', h⟩
            obtain rfl := Option.some.inj hvalue
            exact ⟨stop', _, h, rfl⟩
          · rintro ⟨stop', ⟨ws, rest⟩, hws, h⟩
            cases h
            exact ⟨rfl, stop', hws⟩
  | f :: fs, .item d more, (v, vs), taken => by
      rw [Listed, listed_iff c title count (taken + 1)]
      simp only [ofItems, bind_eq_ok_iff, settled_eq_ok_iff]
      constructor
      · rintro ⟨hread, stop, h⟩
        exact ⟨stop, v, hread, _, h, rfl⟩
      · rintro ⟨stop, w, hread, ⟨ws, rest⟩, hws, h⟩
        cases h
        exact ⟨hread, stop, hws⟩
  | _ :: _, .stray _, _, _ | _ :: _, .trailingComma _, _, _ | _ :: _, .endAfterComma, _, _
  | _ :: _, .unfinished, _, _ => ⟨False.elim, fun ⟨_, h⟩ => (nomatch h)⟩

section

variable {α : Type} {c : Context} {fs : List Field} {build : Slots fs → α} {a : α}

theorem ofMembers_eq_ok_iff {members : Members} :
    (do
      let (draft, stop) ← Draft.acceptAll c fs members (.empty fs)
      let slots ← draft.finish stop fs
      return build slots) = .ok a ↔ ∃ vs, Gathered c fs members vs ∧ build vs = a := by
  simp only [bind_eq_ok_iff, gathered_iff]
  constructor
  · rintro ⟨⟨draft, stop⟩, haccept, vs, hfinish, h⟩
    exact ⟨vs, ⟨draft, stop, haccept, hfinish⟩, Except.ok.inj h⟩
  · rintro ⟨vs, ⟨draft, stop, haccept, hfinish⟩, rfl⟩
    exact ⟨(draft, stop), haccept, vs, hfinish, rfl⟩

theorem ofItems_eq_ok_iff {items : Items} {title : String} {count : ℕ} :
    (do
      let (slots, rest) ← Slots.ofItems c title count 0 fs items
      Slots.finishItems c count rest
      return build slots) = .ok a ↔ ∃ vs, Listed c fs items vs ∧ build vs = a := by
  simp only [bind_eq_ok_iff, listed_iff c title count 0]
  constructor
  · rintro ⟨⟨vs, rest⟩, hitems, ⟨⟩, hfinish, h⟩
    obtain ⟨stop, rfl⟩ := finishItems_eq_ok_iff.1 hfinish
    exact ⟨vs, ⟨stop, hitems⟩, Except.ok.inj h⟩
  · rintro ⟨vs, ⟨stop, hitems⟩, rfl⟩
    exact ⟨(vs, .close stop), hitems, (), rfl, rfl⟩

end

end Slots

namespace Record

variable {α : Type} {r : Record α} {c : Context} {a : α}

theorem readMembers_eq_ok_iff {members : Members} :
    r.readMembers c members = .ok a ↔
      ∃ vs, Slots.Gathered c r.fields members vs ∧ r.build vs = a :=
  Slots.ofMembers_eq_ok_iff

theorem readItems_eq_ok_iff {items : Items} :
    r.readItems c items = .ok a ↔ ∃ vs, Slots.Listed c r.fields items vs ∧ r.build vs = a :=
  Slots.ofItems_eq_ok_iff

theorem read_object_eq_ok_iff {start : List Char} {members : Members} :
    r.read c (.object start members) = .ok a ↔
      ∃ c', c.enter start = .ok c' ∧
        ∃ vs, Slots.Gathered c' r.fields members vs ∧ r.build vs = a := by
  simp only [read, bind_eq_ok_iff, readMembers_eq_ok_iff]

theorem read_list_eq_ok_iff {start : List Char} {items : Items} :
    r.read c (.list start items) = .ok a ↔
      ∃ c', c.enter start = .ok c' ∧
        ∃ vs, Slots.Listed c' r.fields items vs ∧ r.build vs = a := by
  simp only [read, bind_eq_ok_iff, readItems_eq_ok_iff]

end Record

end DeviceTwin.Json
