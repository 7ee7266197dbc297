import DeviceTwin.Proofs.Json.Bare
import DeviceTwin.Proofs.Json.Gathering

/-!
# Readers that do not mind places

A reader needs the places in a document for its faults only: it gives the same value for a
document and for the bare one (`Reader.Placeless`). This holds of the readers of scalars, it is
kept where readers are put together, and a record has it from its fields (`Record.placeless`).
-/

namespace DeviceTwin.Json

open DeviceTwin.Text DeviceTwin.Number

/-! ### Readers -/

namespace Reader

variable {α β : Type} {r : Reader α}

/-- What the reader gives does not depend on the places in a document. -/
def Placeless (r : Reader α) : Prop :=
  ∀ (c : Context) (d : Document) (a : α), r c d.bare = .ok a ↔ r c d = .ok a

/-- What the reader makes of a document is what it makes of the value in it. -/
theorem Placeless.of_holds (h : r.Placeless) {d : Document} {j : Json} (hd : d.Holds j)
    {c : Context} {a : α} : r c d = .ok a ↔ r c j.toDocument = .ok a := by
  rw [← h c d, hd.bare_eq]

theorem string_placeless : string.Placeless := by
  intro c d a
  match d with
  | .scalar _ _ (.text t) => exact known_toOption_eq_ok_iff
  | .scalar _ _ .null | .scalar _ _ (.boolean _) | .scalar _ _ (.number _) | .list .. | .object ..
  | .broken .. => exact error_eq_ok_iff_error

theorem boolean_placeless : boolean.Placeless := by
  intro c d a
  match d with
  | .scalar _ _ (.boolean _) => exact Iff.rfl
  | .scalar _ _ .null | .scalar _ _ (.text _) | .scalar _ _ (.number _) | .list .. | .object ..
  | .broken .. => exact error_eq_ok_iff_error

theorem integer_placeless (low high : ℤ) (wanted : String) :
    (integer low high wanted).Placeless := by
  intro c d a
  match d with
  | .scalar _ _ (.number (.integer n)) =>
      simp only [Document.bare, Scalar.bare, Number.bare, integer]
      split_ifs
      · exact Iff.rfl
      · exact Iff.rfl
  | .scalar _ _ .null | .scalar _ _ (.text _) | .scalar _ _ (.boolean _)
  | .scalar _ _ (.number (.real _)) | .scalar _ _ (.number (.tooLarge _)) | .list .. | .object ..
  | .broken .. => exact error_eq_ok_iff_error

theorem double_placeless : double.Placeless := by
  intro c d a
  match d with
  | .scalar _ _ (.number (.integer n)) =>
      simp only [Document.bare, Scalar.bare, Number.bare, double]
      cases Double.ofInt? n.val with
      | some x => exact Iff.rfl
      | none => exact error_eq_ok_iff_error
  | .scalar _ _ (.number (.real _)) => exact Iff.rfl
  | .scalar _ _ .null | .scalar _ _ (.text _) | .scalar _ _ (.boolean _)
  | .scalar _ _ (.number (.tooLarge _)) | .list .. | .object .. | .broken .. =>
      exact error_eq_ok_iff_error

theorem map_eq_ok_iff {f : α → β} {x : Except Fault α} {b : β} :
    x.map f = .ok b ↔ ∃ a, x = .ok a ∧ f a = b := by
  cases x <;> simp [Except.map]

theorem Placeless.map (h : r.Placeless) (f : α → β) : (r.map f).Placeless := by
  intro c d b
  simp only [Reader.map, map_eq_ok_iff, h c d]

theorem Placeless.optional (h : r.Placeless) : r.optional.Placeless := by
  intro c d o
  have hsome : ∀ d, (r c d.bare).map some = .ok o ↔ (r c d).map some = .ok o := by
    intro d
    simp only [map_eq_ok_iff, h c d]
  match d with
  | .scalar _ _ .null | .broken .. => exact Iff.rfl
  | .scalar start stop (.boolean b) => exact hsome (.scalar start stop (.boolean b))
  | .scalar start stop (.number n) => exact hsome (.scalar start stop (.number n))
  | .scalar start stop (.text t) => exact hsome (.scalar start stop (.text t))
  | .list start items => exact hsome (.list start items)
  | .object start members => exact hsome (.object start members)

theorem itemsOf_placeless (h : r.Placeless) (c : Context) :
    ∀ {items : Items} {as : List α}, r.itemsOf c items.bare = .ok as ↔ r.itemsOf c items = .ok as
  | .item d more, as => by
      simp only [Items.bare, itemsOf, bind_eq_ok_iff, settled_eq_ok_iff, h c d,
        itemsOf_placeless h c]
  | .close _, _ => Iff.rfl
  | .stray _, _ | .trailingComma _, _ | .endAfterComma, _ | .unfinished, _ => Iff.rfl

theorem Placeless.list (h : r.Placeless) : r.list.Placeless := by
  intro c d as
  match d with
  | .list start items =>
      refine (Context.enter_bind_eq_ok_iff [] start).trans ?_
      simp only [Reader.list, bind_eq_ok_iff, itemsOf_placeless h]
  | .scalar .. | .object .. | .broken .. => exact error_eq_ok_iff_error

theorem entriesOf_placeless (h : r.Placeless) (c : Context) :
    ∀ {members : Members} {t t' : Table α},
      r.entriesOf c t members.bare = .ok t' ↔ r.entriesOf c t members = .ok t'
  | .member key d more, _, _ => by
      simp only [Members.bare, Key.bare, entriesOf, bind_eq_ok_iff, settled_eq_ok_iff,
        known_toOption_eq_ok_iff, h c d, entriesOf_placeless h c]
  | .close _, _, _ | .stray _, _, _ | .trailingComma _, _, _ | .endAfterComma, _, _
  | .noKey _, _, _ | .noColon _ _, _, _ | .brokenKey _ _, _, _ | .unfinished, _, _ => Iff.rfl

theorem Placeless.table (h : r.Placeless) : r.table.Placeless := by
  intro c d t
  match d with
  | .object start members =>
      refine (Context.enter_bind_eq_ok_iff [] start).trans ?_
      simp only [Reader.table, bind_eq_ok_iff, entriesOf_placeless h]
  | .scalar .. | .list .. | .broken .. => exact error_eq_ok_iff_error

theorem free_placeless : free.Placeless := by
  intro c d v
  have hvalue : FreeValue.ofDocument d.bare = FreeValue.ofDocument d := by
    simp only [FreeValue.ofDocument, d.ofDocument_bare]
  simp only [free, hvalue, bind_eq_ok_iff, d.check_bare]

end Reader

/-! ### Choices -/

namespace Choice

variable {α : Type} {v : Choice α}

theorem find_eq_ok_iff {name : String} {stop : List Char} {p : Payload α} :
    v.find name stop = .ok p ↔ v.get? name = some p := by
  rw [find]
  cases v.get? name with
  | none => simp
  | some q => simp

theorem ofName_eq_ok_iff {name : String} {stop stop' : List Char} {a : α} :
    v.ofName name stop = .ok a ↔ v.ofName name stop' = .ok a := by
  simp only [ofName, bind_eq_ok_iff, find_eq_ok_iff]

theorem readNothing_bare (c : Context) (d : Document) (u : Unit) :
    readNothing c d.bare = .ok u ↔ readNothing c d = .ok u := by
  match d with
  | .scalar _ _ .null => exact Iff.rfl
  | .object _ (.close _) =>
      simp only [Document.bare, Members.bare, readNothing]
      split_ifs
      · exact Iff.rfl
      · exact Iff.rfl
  | .scalar _ _ (.boolean _) | .scalar _ _ (.number _) | .scalar _ _ (.text _) | .list ..
  | .object _ (.member ..) | .object _ (.stray _) | .object _ (.trailingComma _)
  | .object _ .endAfterComma | .object _ (.noKey _) | .object _ (.noColon _ _)
  | .object _ (.brokenKey _ _) | .object _ .unfinished | .broken .. => exact error_eq_ok_iff_error

theorem readPayload_bare (c : Context) (d : Document) (p : Payload α) (a : α) :
    readPayload c d.bare p = .ok a ↔ readPayload c d p = .ok a := by
  cases p with
  | nothing b => simp only [readPayload, bind_eq_ok_iff, readNothing_bare]
  | text f => simp only [readPayload, bind_eq_ok_iff, Reader.string_placeless c d]

/-- The one member of an object names the variant and gives what it carries. -/
def Picks (v : Choice α) (c : Context) (key : Key) (d : Document) (a : α) : Prop :=
  ∃ name p, key.text = .ok name ∧ v.get? name = some p ∧ readPayload c d p = .ok a

theorem picks_bare {c : Context} {key : Key} {d : Document} {a : α} :
    v.Picks c key.bare d.bare a ↔ v.Picks c key d a := by
  simp only [Picks, Key.bare, known_toOption_eq_ok_iff, readPayload_bare]

theorem readMember_eq_ok_iff {c : Context} {key : Key} {d : Document} {more : Members} {a : α} :
    v.readMember c (.member key d more) = .ok a ↔
      v.Picks c key d a ∧ ∃ stop, more = .close stop := by
  simp only [readMember, bind_eq_ok_iff, find_eq_ok_iff, Picks]
  constructor
  · rintro ⟨name, hname, p, hp, b, hb, h⟩
    split at h
    · obtain rfl := Except.ok.inj h
      exact ⟨⟨name, p, hname, hp, hb⟩, _, rfl⟩
    · cases h
    · cases h
  · rintro ⟨⟨name, p, hname, hp, hb⟩, stop, rfl⟩
    exact ⟨name, hname, p, hp, a, hb, rfl⟩

theorem readWhole_eq_ok_iff {c : Context} {start : List Char} {key : Key} {d : Document}
    {more : Members} {a : α} :
    v.readWhole c (.object start (.member key d more)) = .ok a ↔
      v.Picks c key d a ∧ ∃ stop, more = .close stop := by
  match more with
  | .close stop =>
      simp only [readWhole, bind_eq_ok_iff, find_eq_ok_iff, Picks]
      constructor
      · rintro ⟨name, hname, p, hp, hb⟩
        exact ⟨⟨name, p, hname, hp, hb⟩, stop, rfl⟩
      · rintro ⟨⟨name, p, hname, hp, hb⟩, -⟩
        exact ⟨name, hname, p, hp, hb⟩
  | .member .. | .stray _ | .trailingComma _ | .endAfterComma | .noKey _ | .noColon _ _
  | .brokenKey _ _ | .unfinished =>
      refine iff_of_false error_ne_ok ?_
      rintro ⟨-, stop, h⟩
      cases h

theorem readMember_bare (c : Context) (members : Members) (a : α) :
    v.readMember c members.bare = .ok a ↔ v.readMember c members = .ok a := by
  match members with
  | .member key d more =>
      rw [Members.bare, readMember_eq_ok_iff, readMember_eq_ok_iff, picks_bare,
        Members.bare_eq_close_iff]
  | .close _ | .stray _ | .trailingComma _ | .endAfterComma | .noKey _ | .brokenKey _ _
  | .unfinished => exact error_eq_ok_iff_error
  | .noColon _ _ => exact Iff.rfl

theorem readText_bare (c : Context) (d : Document) (a : α) :
    v.readText c d.bare = .ok a ↔ v.readText c d = .ok a := by
  match d with
  | .scalar start stop (.text t) =>
      simp only [Document.bare, Scalar.bare, readText, bind_eq_ok_iff, known_toOption_eq_ok_iff]
      exact exists_congr fun name => and_congr_right fun _ => ofName_eq_ok_iff
  | .object start members =>
      refine (Context.enter_bind_eq_ok_iff [] start).trans ?_
      simp only [readText, bind_eq_ok_iff, readMember_bare]
  | .scalar _ _ .null | .scalar _ _ (.boolean _) | .scalar _ _ (.number _) | .list .. =>
      exact error_eq_ok_iff_error
  | .broken .. => exact Iff.rfl

theorem readWhole_bare (c : Context) (d : Document) (a : α) :
    v.readWhole c d.bare = .ok a ↔ v.readWhole c d = .ok a := by
  match d with
  | .scalar start stop (.text t) =>
      simp only [Document.bare, Scalar.bare, readWhole, bind_eq_ok_iff, known_toOption_eq_ok_iff]
      exact exists_congr fun name => and_congr_right fun _ => ofName_eq_ok_iff
  | .object start (.member key d more) =>
      rw [Document.bare, Members.bare, readWhole_eq_ok_iff, readWhole_eq_ok_iff, picks_bare,
        Members.bare_eq_close_iff]
  | .scalar _ _ .null | .scalar _ _ (.boolean _) | .scalar _ _ (.number _) | .list ..
  | .object _ (.close _) | .object _ (.stray _) | .object _ (.trailingComma _)
  | .object _ .endAfterComma | .object _ (.noKey _) | .object _ (.noColon _ _)
  | .object _ (.brokenKey _ _) | .object _ .unfinished | .broken .. => exact error_eq_ok_iff_error

theorem read_placeless (v : Choice α) : v.read.Placeless := by
  intro c d a
  simp only [Choice.read]
  split_ifs
  · exact readText_bare c d a
  · exact readWhole_bare c d a

end Choice

/-! ### Records -/

namespace Members

theorem under_bare (key : String) :
    ∀ members : Members, members.bare.under key = (members.under key).map Document.bare
  | .close _ | .stray _ | .trailingComma _ | .endAfterComma | .noKey _ | .noColon _ _
  | .brokenKey _ _ | .unfinished => rfl
  | .member k d more => by
      simp only [bare, under, Key.bare, known_toOption_eq_ok_iff, under_bare key more]
      split_ifs <;> rfl

theorem without_bare (key : String) :
    ∀ members : Members, members.bare.without key = (members.without key).bare
  | .close _ | .stray _ | .trailingComma _ | .endAfterComma | .noKey _ | .noColon _ _
  | .brokenKey _ _ | .unfinished => rfl
  | .member k d more => by
      simp only [bare, without, Key.bare, known_toOption_eq_ok_iff, without_bare key more]
      split_ifs <;> rfl

theorem passed_bare : ∀ members : Members, members.bare.Passed ↔ members.Passed
  | .close _ | .stray _ | .trailingComma _ | .endAfterComma | .noKey _ | .noColon _ _
  | .brokenKey _ _ | .unfinished => Iff.rfl
  | .member k d more => by
      simp only [bare, Passed, Key.bare, known_toOption_eq_ok_iff, d.skip_bare, passed_bare more]

end Members

theorem Field.gets_bare {f : Field} (hf : f.read.Placeless) {c : Context} {ds : List Document}
    {v : f.Value} : f.Gets c (ds.map Document.bare) v ↔ f.Gets c ds v := by
  match ds with
  | [] => exact Iff.rfl
  | [d] => exact hf c d v
  | _ :: _ :: _ => exact Iff.rfl

theorem Slots.gathered_bare {c : Context} :
    ∀ {fs : List Field} (_ : ∀ f ∈ fs, f.read.Placeless) {members : Members} {vs : Slots fs},
      Gathered c fs members.bare vs ↔ Gathered c fs members vs
  | [], _, members, () => members.passed_bare
  | f :: fs, h, members, (v, vs) => by
      obtain ⟨hf, hfs⟩ := List.forall_mem_cons.1 h
      rw [Gathered, Gathered, Members.under_bare, Members.without_bare, Field.gets_bare hf,
        gathered_bare hfs]

theorem Slots.listed_bare {c : Context} :
    ∀ {fs : List Field} (_ : ∀ f ∈ fs, f.read.Placeless) (items : Items) {vs : Slots fs},
      Listed c fs items.bare vs ↔ Listed c fs items vs
  | [], _, .close _, () => Iff.rfl
  | f :: fs, h, .item d more, (v, vs) => by
      obtain ⟨hf, hfs⟩ := List.forall_mem_cons.1 h
      rw [Items.bare, Listed, Listed, hf c d v, listed_bare hfs more]
  | f :: fs, h, .close stop, (v, vs) => by
      obtain ⟨hf, hfs⟩ := List.forall_mem_cons.1 h
      exact and_congr_right fun _ => listed_bare hfs (.close stop)
  | [], _, .item .., () | [], _, .stray _, () | [], _, .trailingComma _, ()
  | [], _, .endAfterComma, () | [], _, .unfinished, () | _ :: _, _, .stray _, (_, _)
  | _ :: _, _, .trailingComma _, (_, _) | _ :: _, _, .endAfterComma, (_, _)
  | _ :: _, _, .unfinished, (_, _) => Iff.rfl

/-- A record does not depend on places if its fields do not. -/
theorem Record.placeless {α : Type} {r : Record α}
    (hfields : r.fields.Forall fun f => f.read.Placeless) : r.read.Placeless := by
  have h := List.forall_iff_forall_mem.1 hfields
  intro c d a
  match d with
  | .object start members =>
      refine (Context.enter_bind_eq_ok_iff [] start).trans ?_
      simp only [read, bind_eq_ok_iff, readMembers_eq_ok_iff, Slots.gathered_bare h]
  | .list start items =>
      refine (Context.enter_bind_eq_ok_iff [] start).trans ?_
      simp only [read, bind_eq_ok_iff, readItems_eq_ok_iff, Slots.listed_bare h]
  | .scalar .. | .broken .. => exact error_eq_ok_iff_error

namespace Codec

theorem natural32_placeless : natural32.read.Placeless :=
  (Reader.integer_placeless _ _ _).map _

theorem integer32_placeless : integer32.read.Placeless :=
  (Reader.integer_placeless _ _ _).map _

end Codec

end DeviceTwin.Json
