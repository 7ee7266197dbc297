import DeviceTwin.Json.Stored
import DeviceTwin.Proofs.Json.Value
import DeviceTwin.Proofs.Results

/-!
# Documents without their places

A document says of each of its parts where it stands in the text, and of a text that cannot be
read why. `Document.bare` takes both away. Its height and its value stay, and so does whether it
can be passed over or read through. Parts that break off stay as they are, since no reader gives
a value for them.
-/

namespace DeviceTwin.Json

open DeviceTwin.Text DeviceTwin.Number

/-! ### Taking the places away -/

/-- A text if there is one. -/
def known : Option String → Except Fault String
  | some s => .ok s
  | none => .error (.unplaced .loneSurrogate)

theorem known_eq_ok_iff {o : Option String} {s : String} : known o = .ok s ↔ o = some s := by
  cases o <;> simp [known]

theorem known_toOption_eq_ok_iff {t : Except Fault String} {s : String} :
    known t.toOption = .ok s ↔ t = .ok s :=
  known_eq_ok_iff.trans toOption_eq_some_iff

def Number.bare : Number → Number
  | tooLarge _ => tooLarge []
  | n => n

def Scalar.bare : Scalar → Scalar
  | number n => number n.bare
  | text s => text (known s.toOption)
  | value => value

def Key.bare (k : Key) : Key :=
  ⟨known k.text.toOption, []⟩

mutual

def Document.bare : Document → Document
  | .scalar _ _ value => .scalar [] [] value.bare
  | .list _ items => .list [] items.bare
  | .object _ members => .object [] members.bare
  | .broken start read skip => .broken start read skip

def Items.bare : Items → Items
  | .close _ => .close []
  | .item d more => .item d.bare more.bare
  | items => items

def Members.bare : Members → Members
  | .close _ => .close []
  | .member key d more => .member key.bare d.bare more.bare
  | members => members

end

theorem Members.bare_eq_close_iff {members : Members} :
    (∃ stop, members.bare = .close stop) ↔ ∃ stop, members = .close stop := by
  cases members with
  | close stop => exact ⟨fun _ => ⟨stop, rfl⟩, fun _ => ⟨[], rfl⟩⟩
  | _ => exact ⟨fun ⟨_, h⟩ => (nomatch h), fun ⟨_, h⟩ => (nomatch h)⟩

/-! ### What stays -/

mutual

theorem Document.height_bare : ∀ d : Document, d.bare.height = d.height
  | .scalar .. | .broken .. => rfl
  | .list _ items => congrArg (· + 1) (Items.height_bare items)
  | .object _ members => congrArg (· + 1) (Members.height_bare members)

theorem Items.height_bare :
    ∀ items : Items, Document.itemsHeight items.bare = Document.itemsHeight items
  | .item d more => congrArg₂ max (Document.height_bare d) (Items.height_bare more)
  | .close _ | .stray _ | .trailingComma _ | .endAfterComma | .unfinished => rfl

theorem Members.height_bare :
    ∀ members : Members, Document.membersHeight members.bare = Document.membersHeight members
  | .member _ d more => congrArg₂ max (Document.height_bare d) (Members.height_bare more)
  | .close _ | .stray _ | .trailingComma _ | .endAfterComma | .noKey _ | .noColon _ _
  | .brokenKey _ _ | .unfinished => rfl

end

mutual

theorem Document.skip_bare : ∀ d : Document, d.bare.skip = .ok () ↔ d.skip = .ok ()
  | .scalar .. | .broken .. => Iff.rfl
  | .list _ items => Items.skip_bare items
  | .object _ members => Members.skip_bare members

theorem Items.skip_bare :
    ∀ items : Items, Document.skipItems items.bare = .ok () ↔ Document.skipItems items = .ok ()
  | .item d more => by
      simp only [Items.bare, Document.skipItems, bind_eq_ok_iff, Document.skip_bare d,
        Items.skip_bare more]
  | .close _ | .stray _ | .trailingComma _ | .endAfterComma | .unfinished => Iff.rfl

theorem Members.skip_bare :
    ∀ members : Members,
      Document.skipMembers members.bare = .ok () ↔ Document.skipMembers members = .ok ()
  | .member _ d more => by
      simp only [Members.bare, Document.skipMembers, bind_eq_ok_iff, Document.skip_bare d,
        Members.skip_bare more]
  | .close _ | .stray _ | .trailingComma _ | .endAfterComma | .noKey _ | .noColon _ _
  | .brokenKey _ _ | .unfinished => Iff.rfl

end

/-- Where a bracket opens makes no difference to the room in it. -/
theorem Context.enter_bind_eq_ok_iff {α : Type} {c : Context} (start start' : List Char)
    {inside : Context → Except Fault α} {a : α} :
    (c.enter start >>= inside) = .ok a ↔ (c.enter start' >>= inside) = .ok a := by
  simp only [bind_eq_ok_iff, enter_eq_ok_iff]

theorem Document.checkScalar_bare (value : Scalar) :
    checkScalar value.bare = .ok () ↔ checkScalar value = .ok () := by
  match value with
  | .null | .boolean _ | .number (.integer _) | .number (.real _) | .text (.ok _) => exact Iff.rfl
  | .number (.tooLarge _) | .text (.error _) => exact ⟨nofun, nofun⟩

mutual

theorem Document.check_bare :
    ∀ (d : Document) (c : Context), d.bare.check c = .ok () ↔ d.check c = .ok ()
  | .scalar _ _ value, _ => Document.checkScalar_bare value
  | .list start items, c => by
      rw [Document.bare, Document.check, Document.check, Context.enter_bind_eq_ok_iff [] start]
      simp only [bind_eq_ok_iff, Items.check_bare items]
  | .object start members, c => by
      rw [Document.bare, Document.check, Document.check, Context.enter_bind_eq_ok_iff [] start]
      simp only [bind_eq_ok_iff, Members.check_bare members]
  | .broken .., _ => Iff.rfl

theorem Items.check_bare :
    ∀ (items : Items) (c : Context),
      Document.checkItems c items.bare = .ok () ↔ Document.checkItems c items = .ok ()
  | .item d more, c => by
      simp only [Items.bare, Document.checkItems, bind_eq_ok_iff, Document.check_bare d,
        Items.check_bare more]
  | .close _, _ | .stray _, _ | .trailingComma _, _ | .endAfterComma, _ | .unfinished, _ => Iff.rfl

theorem Members.check_bare :
    ∀ (members : Members) (c : Context),
      Document.checkMembers c members.bare = .ok () ↔ Document.checkMembers c members = .ok ()
  | .member key d more, c => by
      simp only [Members.bare, Document.checkMembers, bind_eq_ok_iff, Key.bare,
        known_toOption_eq_ok_iff, Document.check_bare d, Members.check_bare more]
  | .close _, _ | .stray _, _ | .trailingComma _, _ | .endAfterComma, _ | .noKey _, _
  | .noColon _ _, _ | .brokenKey _ _, _ | .unfinished, _ => Iff.rfl

end

mutual

theorem Document.ofDocument_bare : ∀ d : Document, Json.ofDocument d.bare = Json.ofDocument d
  | .scalar _ _ .null | .scalar _ _ (.boolean _) | .scalar _ _ (.number (.integer _))
  | .scalar _ _ (.number (.real _)) | .scalar _ _ (.number (.tooLarge _))
  | .scalar _ _ (.text (.ok _)) | .scalar _ _ (.text (.error _)) | .broken .. => rfl
  | .list _ items => congrArg Json.list (Items.ofItems_bare items)
  | .object _ members => congrArg Json.object (Members.ofMembers_bare members [])

theorem Items.ofItems_bare : ∀ items : Items, Json.ofItems items.bare = Json.ofItems items
  | .item d more => congrArg₂ List.cons (Document.ofDocument_bare d) (Items.ofItems_bare more)
  | .close _ | .stray _ | .trailingComma _ | .endAfterComma | .unfinished => rfl

theorem Members.ofMembers_bare :
    ∀ (members : Members) (es : List (String × Json)),
      Json.ofMembers es members.bare = Json.ofMembers es members
  | .member ⟨.ok k, _⟩ d more, es => by
      simp only [Members.bare, Key.bare, known, Except.toOption, Json.ofMembers,
        Document.ofDocument_bare d, Members.ofMembers_bare more]
  | .member ⟨.error _, _⟩ d more, es => by
      simp only [Members.bare, Key.bare, known, Except.toOption, Json.ofMembers,
        Members.ofMembers_bare more]
  | .close _, _ | .stray _, _ | .trailingComma _, _ | .endAfterComma, _ | .noKey _, _
  | .noColon _ _, _ | .brokenKey _ _, _ | .unfinished, _ => rfl

end

/-! ### Documents of values -/

mutual

/-- A document that holds a value is that value, places apart. -/
theorem Document.Holds.bare_eq : ∀ {d : Document} {j : Json}, d.Holds j → d.bare = j.toDocument
  | _, _, .null _ _ | _, _, .boolean _ _ _ | _, _, .real _ _ _ | _, _, .text _ _ _ => rfl
  | _, _, .integer _ _ n => by
      rw [Json.toDocument, numberOf, dif_pos n.fits]
      rfl
  | _, _, .list _ h => congrArg (Document.list []) (Items.Hold.bare_eq h)
  | _, _, .object _ h => congrArg (Document.object []) (Members.Hold.bare_eq h)

theorem Items.Hold.bare_eq :
    ∀ {items : Items} {js : List Json}, items.Hold js → items.bare = Json.toItems js
  | _, _, .nil _ => rfl
  | _, _, .cons h hmore => congrArg₂ Items.item h.bare_eq (Items.Hold.bare_eq hmore)

theorem Members.Hold.bare_eq :
    ∀ {members : Members} {es : List (String × Json)}, members.Hold es →
      members.bare = Json.toMembers es
  | _, _, .nil _ => rfl
  | _, _, .cons h hmore => congrArg₂ (Members.member _) h.bare_eq (Members.Hold.bare_eq hmore)

end

end DeviceTwin.Json
