import DeviceTwin.Json.Record
import DeviceTwin.Proofs.Json.Depth
import Mathlib.Data.List.Nodup

/-!
# Records are read back

`Codec.Restores c a` says that a codec reads what it writes of `a` as `a`, or refuses it for
its depth. For a record it follows from its fields (`Record.restores`): a field that is
written has to be read back, and a field that is left out has to stand for what it held.
More generally an object is read if each of its members gives the value of a field and the
fields without a member have one of their own (`Slots.Spelled`). The keys of a record
differ, so that each member goes to its field. The induction is on the fields, and a field
is left alone by all members that come after its own.
-/

namespace DeviceTwin.Json

open DeviceTwin.Text DeviceTwin.Number

/-! ### Choices -/

namespace Choice

variable {α : Type} {v : Choice α} {name : String}

theorem find_eq_ok {p : Payload α} (h : v.get? name = some p) (stop : List Char) :
    v.find name stop = .ok p := by
  rw [find, h]

/-- A variant without content is read from its name. -/
theorem reads_nothing {a : α} (h : v.get? name = some (.nothing a)) :
    v.read.Reads (.text name) a := by
  intro c d hd _
  cases hd with
  | text start stop =>
      have hname : v.ofName name stop = .ok a := by
        rw [ofName, find_eq_ok h]
        rfl
      rw [Choice.read]
      split_ifs
      · exact hname
      · exact hname

/-- A variant that carries a text is read from the object of its name and the text. -/
theorem reads_text {f : String → α} (h : v.get? name = some (.text f)) (s : String) :
    v.read.Reads (.object [(name, .text s)]) (f s) := by
  intro c d hd hc
  cases hd with
  | object start hmembers =>
      cases hmembers with
      | cons hvalue hmore =>
          cases hmore
          cases hvalue
          have hfind := find_eq_ok h
          rw [Choice.read]
          split_ifs with hsource
          · obtain ⟨c', henter, -⟩ := Context.Fits.enter hc start
            simp only [readText, henter, readMember, ok_bind, hfind]
            rfl
          · simp only [readWhole, ok_bind, hfind]
            rfl

/-- Of the object of a name and a text only the bracket can be too deep. -/
theorem refuses_text (v : Choice α) (name s : String) :
    v.read.Refuses (.object [(name, .text s)]) := by
  intro c d hd hc
  cases hd with
  | object start hmembers =>
      have hsource := Context.source_of_not_fits hc
      rw [Choice.read, if_pos hsource]
      exact Context.enter_tooDeep hc start fun c' hc' => absurd c'.fits_zero hc'

end Choice

/-! ### Fields -/

/-- The codec reads what it writes of the value as that value, unless it is too deep. -/
structure Codec.Restores {α : Type} (c : Codec α) (a : α) : Prop where
  reads : c.read.Reads (c.write a) a
  refuses : c.read.Refuses (c.write a)
  bounded : (c.write a).Bounded

theorem Codec.list_restores {α : Type} {c : Codec α} {as : List α}
    (h : ∀ a ∈ as, c.Restores a) : c.list.Restores as := by
  refine ⟨Reader.list_reads fun a ha => (h a ha).reads,
    Reader.list_refuses fun a ha => ⟨(h a ha).reads, (h a ha).refuses⟩,
    Json.boundedItems_iff.2 fun j hj => ?_⟩
  obtain ⟨a, ha, rfl⟩ := List.mem_map.1 hj
  exact (h a ha).bounded

/-- What is written of the field is read back, and if nothing is written the field holds
what it stands for when it is absent. -/
structure Field.Restores (f : Field) (v : f.Value) : Prop where
  present : ∀ j, f.write v = some j → f.read.Reads j v ∧ f.read.Refuses j ∧ j.Bounded
  absent : f.write v = none → f.absent = some v

namespace Field

variable {α : Type} {c : Codec α}

theorem restores_of_written {f : Field} {v : f.Value} {j : Json} (hwrite : f.write v = some j)
    (hreads : f.read.Reads j v) (hrefuses : f.read.Refuses j) (hbounded : j.Bounded) :
    f.Restores v := by
  refine ⟨fun j' hj' => ?_, fun hnone => ?_⟩
  · obtain rfl := Option.some.inj (hwrite.symm.trans hj')
    exact ⟨hreads, hrefuses, hbounded⟩
  · exact absurd (hwrite.symm.trans hnone) (Option.some_ne_none j)

theorem restores_of_omitted {f : Field} {v : f.Value} (hwrite : f.write v = none)
    (habsent : f.absent = some v) : f.Restores v :=
  ⟨fun j hj => absurd (hj.symm.trans hwrite) (Option.some_ne_none j), fun _ => habsent⟩

theorem required_restores (key : String) {a : α} (h : c.Restores a) :
    (required key c).Restores a :=
  restores_of_written rfl h.reads h.refuses h.bounded

theorem withDefault_restores (key : String) (default : α) {a : α} (h : c.Restores a) :
    (withDefault key default c).Restores a :=
  restores_of_written rfl h.reads h.refuses h.bounded

/-- An optional field may hold any value that is not written as null. -/
theorem optional_restores (key : String) {o : Option α} (h : ∀ a ∈ o, c.Restores a)
    (hnull : ∀ a ∈ o, c.write a ≠ .null) : (optional key c).Restores o := by
  cases o with
  | none => exact restores_of_omitted rfl rfl
  | some a =>
      have ha := h a rfl
      exact restores_of_written rfl (ha.reads.optional (hnull a rfl)) ha.refuses.optional ha.bounded

theorem list_restores (key : String) {as : List α} (h : ∀ a ∈ as, c.Restores a) :
    (list key c).Restores as := by
  cases as with
  | nil => exact restores_of_omitted rfl rfl
  | cons a as =>
      have hlist := Codec.list_restores h
      exact restores_of_written rfl hlist.reads hlist.refuses hlist.bounded

end Field

/-! ### Members -/

/-- Every field of a record is read back. -/
def Slots.Restored : (fs : List Field) → Slots fs → Prop
  | [], () => True
  | f :: fs, (v, vs) => f.Restores v ∧ Slots.Restored fs vs

/-- An object that gives the fields their values: its members come in the order of the
fields, and a field without a member has the value that it stands for when it is absent. -/
inductive Slots.Spelled : (fs : List Field) → Slots fs → List (String × Json) → Prop
  | nil : Slots.Spelled [] () []
  | given {f : Field} {fs : List Field} {v : f.Value} {vs : Slots fs} {j : Json}
      {es : List (String × Json)} (hreads : f.read.Reads j v) (hrefuses : f.read.Refuses j)
      (h : Slots.Spelled fs vs es) : Slots.Spelled (f :: fs) (v, vs) ((f.key, j) :: es)
  | omitted {f : Field} {fs : List Field} {v : f.Value} {vs : Slots fs}
      {es : List (String × Json)} (habsent : f.absent = some v) (h : Slots.Spelled fs vs es) :
      Slots.Spelled (f :: fs) (v, vs) es

namespace Slots

theorem Spelled.key_mem {fs : List Field} {vs : Slots fs} {es : List (String × Json)}
    (h : Spelled fs vs es) : ∀ e ∈ es, e.1 ∈ fs.map Field.key := by
  induction h with
  | nil => exact fun _ he => absurd he List.not_mem_nil
  | given _ _ _ ih => exact List.forall_mem_cons.2 ⟨List.mem_cons_self, fun e he =>
      List.mem_cons_of_mem _ (ih e he)⟩
  | omitted _ _ ih => exact fun e he => List.mem_cons_of_mem _ (ih e he)

/-- A field that comes first has a key that no member of the others has. -/
theorem Spelled.key_ne {f : Field} {fs : List Field} {vs : Slots fs}
    {es : List (String × Json)} (h : Spelled fs vs es) (hkey : f.key ∉ fs.map Field.key) :
    ∀ e ∈ es, e.1 ≠ f.key :=
  fun e he heq => hkey (heq ▸ h.key_mem e he)

/-- What is written of a record that is read back gives its fields their values. -/
theorem Restored.spelled :
    ∀ {fs : List Field} {vs : Slots fs}, Restored fs vs → Spelled fs vs (toMembers fs vs)
  | [], (), _ => .nil
  | f :: fs, (v, vs), h => by
      rw [toMembers]
      split
      · rename_i hwrite
        exact .omitted (h.1.absent hwrite) h.2.spelled
      · rename_i j hwrite
        obtain ⟨hreads, hrefuses, -⟩ := h.1.present j hwrite
        exact .given hreads hrefuses h.2.spelled

theorem bounded_toMembers :
    ∀ {fs : List Field} {vs : Slots fs}, Restored fs vs → Json.BoundedEntries (toMembers fs vs)
  | [], (), _ => trivial
  | f :: fs, (v, vs), h => by
      rw [toMembers]
      split
      · exact bounded_toMembers h.2
      · rename_i j hj
        exact ⟨(h.1.present j hj).2.2, bounded_toMembers h.2⟩

end Slots

namespace Draft

/-- Members with other keys leave a field alone. -/
theorem acceptAll_cons_of_not_mem {f : Field} {fs : List Field} (c : Context)
    (slot : Option f.Value) :
    ∀ {members : Members} {es : List (String × Json)} (slots : Draft fs), members.Hold es →
      (∀ e ∈ es, e.1 ≠ f.key) →
        acceptAll c (f :: fs) members (slot, slots) =
          (acceptAll c fs members slots).map fun p => ((slot, p.1), p.2)
  | _, _, _, .nil _, _ => rfl
  | .member ⟨.ok k, stop⟩ d more, (_, _) :: _, slots, .cons _ hmore, hne => by
      obtain ⟨hk, hes⟩ := List.forall_mem_cons.1 hne
      have haccept : accept c k stop d (f :: fs) (slot, slots) =
          (accept c k stop d fs slots).map fun slots => (slot, slots) := by
        rw [accept.eq_def]
        simp only [if_neg hk]
        rfl
      simp only [acceptAll, ok_bind, haccept]
      cases accept c k stop d fs slots with
      | error e => rfl
      | ok slots' => exact acceptAll_cons_of_not_mem c slot slots' hmore hes

/-- A member of the first field fills it. -/
theorem acceptAll_first {f : Field} {fs : List Field} {c : Context} {v : f.Value}
    {stop : List Char} {d : Document} {more : Members} (hread : f.read c d = .ok v) :
    acceptAll c (f :: fs) (.member ⟨.ok f.key, stop⟩ d more) (empty (f :: fs)) =
      acceptAll c (f :: fs) more (some v, empty fs) := by
  simp only [acceptAll, empty, accept, if_pos, hread, settled_ok, ok_bind]
  rfl

/-- The members that give the fields their values fill a draft that is finished to them. -/
theorem acceptAll_reads {fs : List Field} {vs : Slots fs} {es : List (String × Json)}
    (h : Slots.Spelled fs vs es) :
    ∀ {c : Context} {members : Members}, (fs.map Field.key).Nodup → members.Hold es →
      c.Fits (Json.entriesHeight es) →
        ∃ draft stop, acceptAll c fs members (empty fs) = .ok (draft, stop) ∧
          ∀ stop', finish stop' fs draft = .ok vs := by
  induction h with
  | nil =>
      rintro c _ - ⟨stop⟩ -
      exact ⟨(), stop, rfl, fun _ => rfl⟩
  | @given f fs v vs j es hreads _ h ih =>
      intro c members hkeys hmembers hc
      obtain ⟨hkey, hkeys⟩ := List.nodup_cons.1 hkeys
      obtain ⟨hhead, hrest⟩ := Context.fits_max.1 hc
      cases hmembers with
      | @cons _ _ d _ _ _ hd hmore =>
          obtain ⟨draft, stop, haccept, hfinish⟩ := ih hkeys hmore hrest
          refine ⟨(some v, draft), stop, ?_, fun stop' => ?_⟩
          · rw [acceptAll_first (hreads c d hd hhead),
              acceptAll_cons_of_not_mem c (some v) (empty fs) hmore (h.key_ne hkey), haccept]
            rfl
          · simp only [finish, hfinish, Option.orElse]
            rfl
  | @omitted f fs v vs es habsent h ih =>
      intro c members hkeys hmembers hc
      obtain ⟨hkey, hkeys⟩ := List.nodup_cons.1 hkeys
      obtain ⟨draft, stop, haccept, hfinish⟩ := ih hkeys hmembers hc
      refine ⟨(none, draft), stop, ?_, fun stop' => ?_⟩
      · rw [empty, acceptAll_cons_of_not_mem c none (empty fs) hmembers (h.key_ne hkey), haccept]
        rfl
      · simp only [finish, habsent, hfinish, Option.orElse]
        rfl

/-- The members in front of one that is too deep are taken in, and that one is refused. -/
theorem acceptAll_tooDeep {fs : List Field} {vs : Slots fs} {es : List (String × Json)}
    (h : Slots.Spelled fs vs es) :
    ∀ {c : Context} {members : Members}, (fs.map Field.key).Nodup → members.Hold es →
      ¬ c.Fits (Json.entriesHeight es) → TooDeep (acceptAll c fs members (empty fs)) := by
  induction h with
  | nil => exact fun {c} _ _ _ hc => absurd c.fits_zero hc
  | @given f fs v vs j es hreads hrefuses h ih =>
      intro c members hkeys hmembers hc
      obtain ⟨hkey, hkeys⟩ := List.nodup_cons.1 hkeys
      cases hmembers with
      | @cons _ stop d _ more _ hd hmore =>
          by_cases hhead : c.Fits j.height
          · have hrest : ¬ c.Fits (Json.entriesHeight es) :=
              fun hrest => hc (Context.fits_max.2 ⟨hhead, hrest⟩)
            rw [acceptAll_first (hreads c d hd hhead),
              acceptAll_cons_of_not_mem c (some v) (empty fs) hmore (h.key_ne hkey)]
            exact (ih hkeys hmore hrest).map _
          · have haccept : TooDeep (accept c f.key stop d (f :: fs) (empty (f :: fs))) := by
              simp only [empty, accept, if_pos]
              exact ((hrefuses c d hd hhead).settled _).bind _
            exact haccept.bind _
  | @omitted f fs v vs es _ h ih =>
      intro c members hkeys hmembers hc
      obtain ⟨hkey, hkeys⟩ := List.nodup_cons.1 hkeys
      rw [empty, acceptAll_cons_of_not_mem c none (empty fs) hmembers (h.key_ne hkey)]
      exact (ih hkeys hmembers hc).map _

end Draft

namespace Record

variable {α : Type} {r : Record α} {vs : Slots r.fields} {es : List (String × Json)}

theorem reads_of_spelled (hkeys : (r.fields.map Field.key).Nodup)
    (h : Slots.Spelled r.fields vs es) : r.read.Reads (.object es) (r.build vs) := by
  intro c d hd hc
  cases hd with
  | object start hmembers =>
      obtain ⟨c', henter, hc'⟩ := Context.Fits.enter hc start
      obtain ⟨draft, stop, haccept, hfinish⟩ := Draft.acceptAll_reads h hkeys hmembers hc'
      simp only [read, henter, readMembers, ok_bind, haccept, hfinish]
      rfl

theorem refuses_of_spelled (hkeys : (r.fields.map Field.key).Nodup)
    (h : Slots.Spelled r.fields vs es) : r.read.Refuses (.object es) := by
  intro c d hd hc
  cases hd with
  | object start hmembers =>
      exact Context.enter_tooDeep hc start fun c' hc' =>
        (Draft.acceptAll_tooDeep h hkeys hmembers hc').bind _

/-- A record whose fields are read back is read back. -/
theorem restores (hkeys : (r.fields.map Field.key).Nodup) {a : α}
    (h : Slots.Restored r.fields (r.parts a)) : r.codec.Restores a := by
  have hreads := reads_of_spelled hkeys h.spelled
  rw [r.build_parts] at hreads
  exact ⟨hreads, refuses_of_spelled hkeys h.spelled, Slots.bounded_toMembers h⟩

end Record

theorem Record.write_ne_null {α : Type} (r : Record α) (a : α) : r.codec.write a ≠ .null := nofun

/-! ### Codecs -/

namespace Codec

variable {α : Type}

theorem string_restores (s : String) : string.Restores s :=
  ⟨Reader.string_reads s, Reader.refuses_of_height_eq_zero rfl, trivial⟩

theorem boolean_restores (b : Bool) : boolean.Restores b :=
  ⟨Reader.boolean_reads b, Reader.refuses_of_height_eq_zero rfl, trivial⟩

theorem free_restores (v : FreeValue) : free.Restores v :=
  ⟨Reader.free_reads v, Reader.free_refuses v.json, v.canonical.bounded⟩

theorem natural32_restores (n : UInt32) : natural32.Restores n := by
  have hlt := n.toNat_lt
  have hread : (Reader.integer 0 (count32 - 1) "u32").Reads (.integer n.toNat) n.toNat :=
    Reader.integer_reads "u32" (by omega) (by simp only [count32]; omega)
  refine ⟨?_, Reader.refuses_of_height_eq_zero rfl, ?_⟩
  · have hmap := hread.map fun i => UInt32.ofNat i.toNat
    rw [Int.toNat_natCast, UInt32.ofNat_toNat] at hmap
    exact hmap
  · change IsWide64 n.toNat
    omega

theorem integer32_restores (n : Int32) : integer32.Restores n := by
  have hlow := n.le_toInt
  have hhigh := n.toInt_lt
  have hread : (Reader.integer (-count31) (count31 - 1) "i32").Reads (.integer n.toInt) n.toInt :=
    Reader.integer_reads "i32" (by simp only [count31]; omega) (by simp only [count31]; omega)
  refine ⟨?_, Reader.refuses_of_height_eq_zero rfl, ?_⟩
  · have hmap := hread.map Int32.ofInt
    rw [Int32.ofInt_toInt] at hmap
    exact hmap
  · change IsWide64 n.toInt
    omega

theorem doubles_entriesHeight (es : List (String × Double)) :
    Json.entriesHeight (es.map fun e => (e.1, Json.real e.2)) = 0 := by
  induction es with
  | nil => rfl
  | cons e es ih => exact Nat.max_eq_zero_iff.2 ⟨rfl, ih⟩

theorem doubles_restores (t : Table Double) : doubles.Restores t := by
  refine ⟨Reader.table_reads fun e _ => Reader.double_reads e.2,
    Reader.table_refuses (doubles_entriesHeight t.entries), ?_⟩
  refine Json.boundedEntries_iff.2 fun e he => ?_
  obtain ⟨f, -, rfl⟩ := List.mem_map.1 he
  trivial

end Codec

namespace Field

theorem optional_string_restores (key : String) (o : Option String) :
    (optional key Codec.string).Restores o :=
  optional_restores key (fun s _ => Codec.string_restores s) (fun _ _ => nofun)

theorem optional_record_restores {α : Type} (key : String) {r : Record α} {o : Option α}
    (h : ∀ a ∈ o, r.codec.Restores a) : (optional key r.codec).Restores o :=
  optional_restores key h fun a _ => r.write_ne_null a

end Field

end DeviceTwin.Json
