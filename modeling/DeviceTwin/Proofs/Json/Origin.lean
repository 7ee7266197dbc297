import DeviceTwin.Proofs.Json.Gathering

/-!
# Where a value was read

`Reader.Gives r b a` says that `r` reads some document as `a`, and that no more than `b`
brackets may be open in it at once. Behind each law that puts readers together stands one
that takes them apart again: what a list or a record was read as was read, part by part,
inside of one more bracket. A record may stand in the text as an object or as a list and
may leave fields out; either way each of its fields was absent or was read
(`Record.gives_parts`).
-/

namespace DeviceTwin.Json

open DeviceTwin.Text

/-! ### Brackets within reach -/

namespace Context

/-- How many brackets may be open at once in a document of a given height. -/
def reach (c : Context) (height : ℕ) : ℕ :=
  if c.source = .text then min height c.room else height

variable {c c' : Context} {m n : ℕ}

theorem reach_ofText_le (n : ℕ) : ofText.reach n ≤ depthLimit :=
  Nat.min_le_right n depthLimit

theorem reach_of_fits (h : c.Fits n) : c.reach n = n := by
  rw [reach]
  split_ifs with hsource
  · exact Nat.min_eq_left (h hsource)
  · rfl

theorem reach_max : c.reach (max m n) = max (c.reach m) (c.reach n) := by
  simp only [reach]
  split_ifs
  · omega
  · rfl

theorem reach_mono (c : Context) (h : m ≤ n) : c.reach m ≤ c.reach n := by
  simp only [reach]
  split_ifs
  · exact min_le_min_right c.room h
  · exact h

theorem source_of_enter {start : List Char} (h : c.enter start = .ok c') :
    c'.source = c.source :=
  (enter_eq_ok_iff.1 h).1

theorem reach_enter {start : List Char} (h : c.enter start = .ok c') (n : ℕ) :
    c'.reach n + 1 = c.reach (n + 1) := by
  obtain ⟨hsource, hroom⟩ := enter_eq_ok_iff.1 h
  rw [reach, reach, hsource]
  split_ifs with htext
  · rw [hroom, if_pos htext, Nat.add_min_add_right]
  · rfl

/-- A computation inside of a bracket that comes to an end has entered the bracket. -/
theorem of_enter_eq_ok {α : Type} {start : List Char} {inside : Context → Except Fault α} {a : α}
    (h : (c.enter start >>= inside) = .ok a) :
    ∃ c', inside c' = .ok a ∧ ∀ n, c'.reach n + 1 = c.reach (n + 1) := by
  obtain ⟨c', henter, ha⟩ := bind_eq_ok_iff.1 h
  exact ⟨c', ha, reach_enter henter⟩

end Context

mutual

/-- A document that can be read through has room for its brackets. -/
theorem Document.fits_of_check :
    ∀ {d : Document} {c : Context}, d.check c = .ok () → c.Fits d.height
  | .scalar .., c, _ | .broken .., c, _ => c.fits_zero
  | .list start items, c, h => by
      rw [Document.check] at h
      obtain ⟨c', henter, hitems⟩ := bind_eq_ok_iff.1 h
      exact (Context.fits_of_enter henter).1 (Items.fits_of_check hitems)
  | .object start members, c, h => by
      rw [Document.check] at h
      obtain ⟨c', henter, hmembers⟩ := bind_eq_ok_iff.1 h
      exact (Context.fits_of_enter henter).1 (Members.fits_of_check hmembers)

theorem Items.fits_of_check :
    ∀ {items : Items} {c : Context}, Document.checkItems c items = .ok () →
      c.Fits (Document.itemsHeight items)
  | .item d more, c, h => by
      obtain ⟨⟨⟩, hd, hmore⟩ := bind_eq_ok_iff.1 h
      exact Context.fits_max.2 ⟨Document.fits_of_check hd, Items.fits_of_check hmore⟩
  | .close _, c, _ | .stray _, c, _ | .trailingComma _, c, _ | .endAfterComma, c, _
  | .unfinished, c, _ => c.fits_zero

theorem Members.fits_of_check :
    ∀ {members : Members} {c : Context}, Document.checkMembers c members = .ok () →
      c.Fits (Document.membersHeight members)
  | .member key d more, c, h => by
      obtain ⟨k, -, h⟩ := bind_eq_ok_iff.1 h
      obtain ⟨⟨⟩, hd, hmore⟩ := bind_eq_ok_iff.1 h
      exact Context.fits_max.2 ⟨Document.fits_of_check hd, Members.fits_of_check hmore⟩
  | .close _, c, _ | .stray _, c, _ | .trailingComma _, c, _ | .endAfterComma, c, _
  | .noKey _, c, _ | .noColon _ _, c, _ | .brokenKey _ _, c, _ | .unfinished, c, _ =>
      c.fits_zero

end

namespace Reader

variable {α : Type} {r : Reader α} {b : ℕ}

/-- The reader gives the value for some document in which at most `b` brackets may be open
at once. -/
def Gives (r : Reader α) (b : ℕ) (a : α) : Prop :=
  ∃ (c : Context) (d : Document), c.reach d.height ≤ b ∧ r c d = .ok a

/-- Something is read only where there is something else than null. -/
theorem optional_eq_ok_some {c : Context} {d : Document} {a : α}
    (h : r.optional c d = .ok (some a)) :
    r c d = .ok a ∧ ∀ start stop, d ≠ .scalar start stop .null := by
  rw [Reader.optional.eq_def] at h
  split at h
  · exact nomatch h
  · exact nomatch h
  · rename_i hnull _
    refine ⟨?_, fun start stop => hnull start stop⟩
    cases hread : r c d with
    | error f =>
        rw [hread] at h
        exact nomatch h
    | ok a' =>
        rw [hread] at h
        exact congrArg Except.ok (Option.some.inj (Except.ok.inj h))

theorem Gives.of_optional {a : α} (h : r.optional.Gives b (some a)) : r.Gives b a := by
  obtain ⟨c, d, hb, h⟩ := h
  exact ⟨c, d, hb, (optional_eq_ok_some h).1⟩

theorem itemsOf_gives {c : Context} :
    ∀ {items : Items} {as : List α}, r.itemsOf c items = .ok as →
      c.reach (Document.itemsHeight items) ≤ b → ∀ a ∈ as, r.Gives b a
  | .close _, _, h, _ => by
      obtain rfl := Except.ok.inj h
      exact fun _ ha => absurd ha List.not_mem_nil
  | .item d more, _, h, hb => by
      obtain ⟨a, ha, h⟩ := bind_eq_ok_iff.1 h
      obtain ⟨as, has, h⟩ := bind_eq_ok_iff.1 h
      obtain rfl := Except.ok.inj h
      rw [Document.itemsHeight, Context.reach_max, Nat.max_le] at hb
      exact List.forall_mem_cons.2
        ⟨⟨c, d, hb.1, settled_eq_ok_iff.1 ha⟩, itemsOf_gives has hb.2⟩

/-- The items of a list were read inside of its bracket. -/
theorem Gives.of_list {as : List α} (h : r.list.Gives b as) :
    ∃ b', b' + 1 ≤ b ∧ ∀ a ∈ as, r.Gives b' a := by
  obtain ⟨c, d, hb, h⟩ := h
  cases d with
  | list start items =>
      obtain ⟨c', hitems, hreach⟩ := Context.of_enter_eq_ok h
      rw [Document.height, ← hreach] at hb
      exact ⟨_, hb, itemsOf_gives hitems (Nat.le_refl _)⟩
  | _ => exact nomatch h

/-- The items of a list that is empty when it is left out were read. -/
theorem gives_items {as : List α} (h : some [] = some as ∨ r.list.Gives b as) :
    ∀ a ∈ as, ∃ b', r.Gives b' a := by
  intro a ha
  rcases h with hempty | hread
  · obtain rfl := Option.some.inj hempty
    exact absurd ha List.not_mem_nil
  · obtain ⟨b', -, hitems⟩ := hread.of_list
    exact ⟨b', hitems a ha⟩

end Reader

/-! ### Records -/

/-- The field was absent, or its value was read. -/
def Field.Given (f : Field) (b : ℕ) (v : f.Value) : Prop :=
  f.absent = some v ∨ f.read.Gives b v

def Slots.Given (b : ℕ) : (fs : List Field) → Slots fs → Prop
  | [], () => True
  | f :: fs, (v, vs) => f.Given b v ∧ Slots.Given b fs vs

namespace Slots

variable {c : Context} {b : ℕ}

theorem given_of_gathered :
    ∀ {fs : List Field} {members : Members} {vs : Slots fs}, Gathered c fs members vs →
      c.reach (Document.membersHeight members) ≤ b → Given b fs vs
  | [], _, (), _, _ => trivial
  | f :: fs, members, (v, vs), ⟨hgets, h⟩, hb => by
      have hrest := c.reach_mono (Members.height_without_le f.key members)
      refine ⟨?_, given_of_gathered h (Nat.le_trans hrest hb)⟩
      match hds : members.under f.key, hgets with
      | [], habsent => exact .inl habsent
      | [d], hread =>
          have hd : d ∈ members.under f.key := hds ▸ List.mem_singleton_self d
          have hheight := c.reach_mono (Members.height_le_of_mem_under hd)
          exact .inr ⟨c, d, Nat.le_trans hheight hb, hread⟩

theorem given_of_listed :
    ∀ {fs : List Field} {items : Items} {vs : Slots fs}, Listed c fs items vs →
      c.reach (Document.itemsHeight items) ≤ b → Given b fs vs
  | [], _, (), _, _ => trivial
  | f :: fs, .close stop, (v, vs), ⟨habsent, h⟩, hb => ⟨.inl habsent, given_of_listed h hb⟩
  | f :: fs, .item d more, (v, vs), ⟨hread, h⟩, hb => by
      rw [Document.itemsHeight, Context.reach_max, Nat.max_le] at hb
      exact ⟨.inr ⟨c, d, hb.1, hread⟩, given_of_listed h hb.2⟩

end Slots

/-- The fields of a record that was read were absent, or read inside of its bracket. -/
theorem Record.gives_parts {α : Type} {r : Record α} {b : ℕ} {a : α} (h : r.read.Gives b a) :
    ∃ b' vs, b' + 1 ≤ b ∧ Slots.Given b' r.fields vs ∧ r.build vs = a := by
  obtain ⟨c, d, hb, h⟩ := h
  cases d with
  | object start members =>
      obtain ⟨c', henter, vs, hvs, hbuild⟩ := read_object_eq_ok_iff.1 h
      rw [Document.height, ← Context.reach_enter henter] at hb
      exact ⟨_, vs, hb, Slots.given_of_gathered hvs (Nat.le_refl _), hbuild⟩
  | list start items =>
      obtain ⟨c', henter, vs, hvs, hbuild⟩ := read_list_eq_ok_iff.1 h
      rw [Document.height, ← Context.reach_enter henter] at hb
      exact ⟨_, vs, hb, Slots.given_of_listed hvs (Nat.le_refl _), hbuild⟩
  | _ => exact nomatch h

/-! ### Free values -/

theorem entriesHeight_insertEntry_le (key : String) (j : Json) (es : List (String × Json)) :
    Json.entriesHeight (insertEntry key j es) ≤ max j.height (Json.entriesHeight es) := by
  induction es with
  | nil => exact Nat.le_refl _
  | cons e es ih =>
      rw [insertEntry]
      split_ifs
      · exact Nat.le_refl _
      · simp only [Json.entriesHeight]
        omega
      · simp only [Json.entriesHeight]
        omega

mutual

/-- Canonical form opens no new brackets. -/
theorem height_ofDocument_le : ∀ d : Document, (Json.ofDocument d).height ≤ d.height
  | .scalar _ _ value => by
      rw [Json.ofDocument.eq_def]
      dsimp only
      split <;> exact Nat.zero_le _
  | .list _ items => by
      rw [Json.ofDocument]
      exact Nat.succ_le_succ (itemsHeight_ofItems_le items)
  | .object _ members => by
      rw [Json.ofDocument]
      exact Nat.succ_le_succ (Nat.le_trans (entriesHeight_ofMembers_le members [])
        (Nat.max_le.2 ⟨Nat.zero_le _, Nat.le_refl _⟩))
  | .broken .. => by
      rw [Json.ofDocument]
      exact Nat.zero_le _

theorem itemsHeight_ofItems_le :
    ∀ items : Items, Json.itemsHeight (Json.ofItems items) ≤ Document.itemsHeight items
  | .item d more => by
      rw [Json.ofItems]
      exact max_le_max (height_ofDocument_le d) (itemsHeight_ofItems_le more)
  | .close _ | .stray _ | .trailingComma _ | .endAfterComma | .unfinished => by
      simp only [Json.ofItems]
      exact Nat.zero_le _

theorem entriesHeight_ofMembers_le :
    ∀ (members : Members) (es : List (String × Json)),
      Json.entriesHeight (Json.ofMembers es members) ≤
        max (Json.entriesHeight es) (Document.membersHeight members)
  | .member ⟨.ok k, _⟩ d more, es => by
      have hd := height_ofDocument_le d
      have hinsert := entriesHeight_insertEntry_le k (Json.ofDocument d) es
      have hmore := entriesHeight_ofMembers_le more (insertEntry k (Json.ofDocument d) es)
      rw [Json.ofMembers, Document.membersHeight]
      omega
  | .member ⟨.error _, _⟩ d more, es => by
      have hmore := entriesHeight_ofMembers_le more es
      rw [Json.ofMembers, Document.membersHeight]
      omega
  | .close _, es | .stray _, es | .trailingComma _, es | .endAfterComma, es | .noKey _, es
  | .noColon _ _, es | .brokenKey _ _, es | .unfinished, es => by
      simp only [Json.ofMembers]
      exact Nat.le_max_left _ _

end

/-- A document that can be read through has the value null only if it is written so. -/
theorem Document.ofDocument_ne_null {d : Document} {c : Context} (h : d.check c = .ok ())
    (hd : ∀ start stop, d ≠ .scalar start stop .null) : Json.ofDocument d ≠ .null := by
  cases d with
  | scalar start stop value =>
      match value, hd start stop, h with
      | .null, hne, _ => exact absurd rfl hne
      | .boolean _, _, _ | .number (.integer _), _, _ | .number (.real _), _, _
      | .text (.ok _), _, _ =>
          rw [Json.ofDocument]
          exact nofun
  | list start items =>
      rw [Json.ofDocument]
      exact nofun
  | object start members =>
      rw [Json.ofDocument]
      exact nofun
  | broken start read skip => exact nomatch h

namespace Reader

variable {b : ℕ}

/-- A free value that was read has no more brackets than could be open. -/
theorem height_le_of_free {v : FreeValue} (h : free.Gives b v) : v.json.height ≤ b := by
  obtain ⟨c, d, hb, h⟩ := h
  obtain ⟨⟨⟩, hcheck, h⟩ := bind_eq_ok_iff.1 h
  obtain rfl := Except.ok.inj h
  rw [Context.reach_of_fits (Document.fits_of_check hcheck)] at hb
  exact Nat.le_trans (height_ofDocument_le d) hb

/-- An optional free value is never read as the value null: null stands for nothing. -/
theorem ne_null_of_optional_free {o : Option FreeValue} (h : free.optional.Gives b o) :
    o ≠ some .null := by
  rintro rfl
  obtain ⟨c, d, -, h⟩ := h
  obtain ⟨h, hd⟩ := optional_eq_ok_some h
  obtain ⟨⟨⟩, hcheck, h⟩ := bind_eq_ok_iff.1 h
  exact Document.ofDocument_ne_null hcheck hd (congrArg FreeValue.json (Except.ok.inj h))

end Reader

end DeviceTwin.Json
