import DeviceTwin.Proofs.Json.Origin

/-!
# How high a value is written that was read

What is written of a value can be higher than the text that the value was read from, as a
record writes fields that may be left out. `Codec.StaysBelow c n a` bounds it: the writing
of `a` has fewer than `n` brackets open at once, or no more than could be open where `a` was
read. A list and a record add one bracket to each side, so the bound of a whole value is put
together from those of its parts.
-/

namespace DeviceTwin.Json

open DeviceTwin.Text DeviceTwin.Number

/-- A value that was read is written with fewer than `n` brackets open at once, or with no
more than could be open where it was read. -/
def Codec.StaysBelow {α : Type} (c : Codec α) (n : ℕ) (a : α) : Prop :=
  ∀ b, c.read.Gives b a → (c.write a).height < max n (b + 1)

/-- The bound for a field, which may also have been absent. -/
def Field.StaysBelow (f : Field) (n : ℕ) (v : f.Value) : Prop :=
  ∀ b, f.Given b v → ∀ j ∈ f.write v, j.height < max n (b + 1)

/-! ### Codecs -/

namespace Codec

variable {α : Type} {c : Codec α} {m n : ℕ} {a : α}

theorem StaysBelow.mono (h : c.StaysBelow m a) (hmn : m ≤ n) : c.StaysBelow n a :=
  fun b hb => lt_of_lt_of_le (h b hb) (max_le_max_right (b + 1) hmn)

theorem staysBelow_of_height_lt (h : (c.write a).height < n) : c.StaysBelow n a :=
  fun b _ => lt_of_lt_of_le h (Nat.le_max_left n (b + 1))

theorem staysBelow_of_height_eq_zero (h : (c.write a).height = 0) : c.StaysBelow n a :=
  fun b _ => lt_of_eq_of_lt h (lt_of_lt_of_le (Nat.succ_pos b) (Nat.le_max_right n (b + 1)))

theorem string_staysBelow (s : String) : string.StaysBelow n s :=
  staysBelow_of_height_eq_zero rfl

theorem boolean_staysBelow (b : Bool) : boolean.StaysBelow n b :=
  staysBelow_of_height_eq_zero rfl

theorem free_staysBelow (v : FreeValue) : free.StaysBelow n v :=
  fun b h => lt_of_lt_of_le (Nat.lt_succ_of_le (Reader.height_le_of_free h))
    (Nat.le_max_right n (b + 1))

theorem list_staysBelow {as : List α} (h : ∀ a ∈ as, c.StaysBelow n a) :
    c.list.StaysBelow (n + 1) as := by
  intro b hb
  obtain ⟨b', hle, hitems⟩ := Reader.Gives.of_list hb
  have hheight : Json.itemsHeight (as.map c.write) < max n (b' + 1) := by
    clear hb
    induction as with
    | nil => exact lt_of_lt_of_le (Nat.succ_pos b') (Nat.le_max_right n (b' + 1))
    | cons a as ih =>
        obtain ⟨ha, has⟩ := List.forall_mem_cons.1 h
        obtain ⟨hread, hreads⟩ := List.forall_mem_cons.1 hitems
        exact max_lt (ha b' hread) (ih has hreads)
  change Json.itemsHeight (as.map c.write) + 1 < max (n + 1) (b + 1)
  omega

end Codec

/-! ### Fields -/

namespace Field

variable {α : Type} {c : Codec α} {n : ℕ}

theorem required_staysBelow (key : String) {a : α} (h : c.StaysBelow n a) :
    (required key c).StaysBelow n a := by
  rintro b (habsent | hread) j hj
  · exact nomatch habsent
  · obtain rfl := Option.some.inj hj
    exact h b hread

/-- A value that is written though it was left out has to keep to the bound itself. -/
theorem withDefault_staysBelow (key : String) {default a : α}
    (hdefault : (c.write default).height < max n 1) (h : c.StaysBelow n a) :
    (withDefault key default c).StaysBelow n a := by
  rintro b (habsent | hread) j hj
  · obtain rfl := Option.some.inj hj
    obtain rfl := Option.some.inj habsent
    exact lt_of_lt_of_le hdefault (max_le_max_left n (Nat.succ_le_succ (Nat.zero_le b)))
  · obtain rfl := Option.some.inj hj
    exact h b hread

theorem optional_staysBelow (key : String) {o : Option α} (h : ∀ a ∈ o, c.StaysBelow n a) :
    (optional key c).StaysBelow n o := by
  intro b hgiven j hj
  cases o with
  | none => exact absurd hj (Option.not_mem_none j)
  | some a =>
      obtain rfl := Option.some.inj hj
      rcases hgiven with habsent | hread
      · exact nomatch habsent
      · exact h a rfl b hread.of_optional

theorem list_staysBelow (key : String) {as : List α} (h : ∀ a ∈ as, c.StaysBelow n a) :
    (list key c).StaysBelow (n + 1) as := by
  intro b hgiven j hj
  dsimp only [list] at hj
  split_ifs at hj with hempty
  · exact absurd hj (Option.not_mem_none j)
  · obtain rfl := Option.some.inj hj
    rcases hgiven with habsent | hread
    · obtain rfl := Option.some.inj habsent
      exact absurd rfl hempty
    · exact Codec.list_staysBelow h b hread

theorem withDefault_false_staysBelow (key : String) (b : Bool) :
    (withDefault key false Codec.boolean).StaysBelow n b :=
  withDefault_staysBelow key (lt_max_of_lt_right Nat.zero_lt_one) (Codec.boolean_staysBelow b)

theorem optional_string_staysBelow (key : String) (o : Option String) :
    (optional key Codec.string).StaysBelow n o :=
  optional_staysBelow key fun s _ => Codec.string_staysBelow s

end Field

/-! ### Records -/

namespace Slots

/-- Every field of a record keeps to the bound. -/
def StayBelow (n : ℕ) : (fs : List Field) → Slots fs → Prop
  | [], () => True
  | f :: fs, (v, vs) => f.StaysBelow n v ∧ StayBelow n fs vs

theorem entriesHeight_toMembers_lt {n b : ℕ} :
    ∀ {fs : List Field} {vs : Slots fs}, StayBelow n fs vs → Given b fs vs →
      Json.entriesHeight (toMembers fs vs) < max n (b + 1)
  | [], (), _, _ => lt_of_lt_of_le (Nat.succ_pos b) (Nat.le_max_right n (b + 1))
  | f :: fs, (v, vs), h, hgiven => by
      rw [toMembers]
      split
      · exact entriesHeight_toMembers_lt h.2 hgiven.2
      · rename_i j hj
        exact max_lt (h.1 b hgiven.1 j hj) (entriesHeight_toMembers_lt h.2 hgiven.2)

end Slots

/-- A record has one bracket more than its fields, both where it is read and where it is
written. -/
theorem Record.staysBelow {α : Type} {r : Record α} {n : ℕ} {a : α}
    (hparts : ∀ vs, r.parts (r.build vs) = vs) (h : Slots.StayBelow n r.fields (r.parts a)) :
    r.codec.StaysBelow (n + 1) a := by
  intro b hb
  obtain ⟨b', vs, hle, hgiven, rfl⟩ := Record.gives_parts hb
  rw [hparts] at h
  have hheight := Slots.entriesHeight_toMembers_lt h hgiven
  change Json.entriesHeight (Slots.toMembers r.fields (r.parts (r.build vs))) + 1 <
    max (n + 1) (b + 1)
  rw [hparts]
  omega

/-! ### What a written value holds -/

/-- A written record has a member with the value `j`. -/
def Slots.Writes (fs : List Field) (vs : Slots fs) (j : Json) : Prop :=
  ∃ e ∈ Slots.toMembers fs vs, e.2 = j

theorem Slots.writes_cons {f : Field} {fs : List Field} {vs : Slots (f :: fs)} {j : Json} :
    Slots.Writes (f :: fs) vs j ↔ j ∈ f.write vs.1 ∨ Slots.Writes fs vs.2 j := by
  obtain ⟨v, vs⟩ := vs
  rw [Slots.Writes, Slots.toMembers]
  cases f.write v with
  | none => exact ⟨.inr, fun h => h.resolve_left (Option.not_mem_none j)⟩
  | some i =>
      rw [List.exists_mem_cons_iff, Option.mem_some_iff]
      exact Iff.rfl

theorem Record.height_lt_write {α : Type} {r : Record α} {a : α} {j : Json}
    (h : Slots.Writes r.fields (r.parts a) j) : j.height < (r.write a).height := by
  obtain ⟨e, he, rfl⟩ := h
  exact Nat.lt_succ_of_le (Json.height_le_entriesHeight he)

theorem Codec.height_lt_list {α : Type} {c : Codec α} {as : List α} {a : α} (ha : a ∈ as) :
    (c.write a).height < (c.list.write as).height :=
  Nat.lt_succ_of_le (Json.height_le_itemsHeight (List.mem_map_of_mem ha))

end DeviceTwin.Json
