import DeviceTwin.Json.Reader
import DeviceTwin.Proofs.Json.Writing
import DeviceTwin.Proofs.Results

/-!
# What readers make of a value

`Reader.Reads r j a` says that `r` takes every document that holds `j` to `a`, wherever the
document comes from, as long as its brackets find room in it. Each reader that is made
from others has a law that is made of theirs. With the law of writing, a reader that reads
`j` as `a` reads the text of `j` as `a` (`Reader.Reads.readText`).
-/

namespace DeviceTwin.Json

open DeviceTwin.Text DeviceTwin.Number

/-- There is room for so many brackets. A document that is known to be complete has room
for any number of them. -/
def Context.Fits (c : Context) (height : ℕ) : Prop :=
  c.source = .text → height ≤ c.room

theorem Context.Fits.mono {c : Context} {h h' : ℕ} (hc : c.Fits h) (hle : h' ≤ h) : c.Fits h' :=
  fun hsource => Nat.le_trans hle (hc hsource)

theorem Context.fits_of_enter {c c' : Context} {h : ℕ} {start : List Char}
    (henter : c.enter start = .ok c') : c'.Fits h ↔ c.Fits (h + 1) := by
  obtain ⟨hsource, hroom⟩ := Context.enter_eq_ok_iff.1 henter
  rw [Fits, Fits, hsource]
  refine forall_congr' fun htext => ?_
  rw [hroom, if_pos htext, Nat.add_le_add_iff_right]

theorem Context.Fits.enter {c : Context} {h : ℕ} (hc : c.Fits (h + 1)) (start : List Char) :
    ∃ c', c.enter start = .ok c' ∧ c'.Fits h := by
  have henter : ∃ c', c.enter start = .ok c' := by
    refine ⟨⟨c.source, if c.source = .text then c.room - 1 else c.room⟩,
      Context.enter_eq_ok_iff.2 ⟨rfl, ?_⟩⟩
    split_ifs with htext
    · exact (Nat.sub_add_cancel (Nat.le_trans (Nat.succ_pos h) (hc htext))).symm
    · rfl
  obtain ⟨c', henter⟩ := henter
  exact ⟨c', henter, (Context.fits_of_enter henter).2 hc⟩

/-! ### Reading through -/

mutual

theorem Document.Holds.check :
    ∀ {d : Document} {j : Json} {c : Context}, d.Holds j → c.Fits j.height → d.check c = .ok ()
  | _, _, _, .null _ _, _ | _, _, _, .boolean _ _ _, _ | _, _, _, .integer _ _ _, _
  | _, _, _, .real _ _ _, _ | _, _, _, .text _ _ _, _ => rfl
  | _, _, _, .list start h, hc => by
      obtain ⟨c', henter, hc'⟩ := Context.Fits.enter hc start
      rw [Document.check, henter]
      exact Items.Hold.check h hc'
  | _, _, _, .object start h, hc => by
      obtain ⟨c', henter, hc'⟩ := Context.Fits.enter hc start
      rw [Document.check, henter]
      exact Members.Hold.check h hc'

theorem Items.Hold.check :
    ∀ {items : Items} {js : List Json} {c : Context}, items.Hold js →
      c.Fits (Json.itemsHeight js) → Document.checkItems c items = .ok ()
  | _, _, _, .nil _, _ => rfl
  | _, _, _, .cons h hmore, hc => by
      rw [Document.checkItems, h.check (hc.mono (Nat.le_max_left _ _))]
      exact Items.Hold.check hmore (hc.mono (Nat.le_max_right _ _))

theorem Members.Hold.check :
    ∀ {members : Members} {es : List (String × Json)} {c : Context}, members.Hold es →
      c.Fits (Json.entriesHeight es) → Document.checkMembers c members = .ok ()
  | _, _, _, .nil _, _ => rfl
  | _, _, _, .cons h hmore, hc => by
      have hhead := h.check (hc.mono (Nat.le_max_left _ _))
      have hrest := Members.Hold.check hmore (hc.mono (Nat.le_max_right _ _))
      simp only [Document.checkMembers, hhead, hrest]
      rfl

end

namespace Reader

variable {α β : Type}

/-- The reader takes every document that holds the value to `a`. -/
def Reads (r : Reader α) (j : Json) (a : α) : Prop :=
  ∀ (c : Context) (d : Document), d.Holds j → c.Fits j.height → r c d = .ok a

/-! ### Scalars -/

theorem string_reads (s : String) : string.Reads (.text s) s := by
  intro c d h _
  cases h
  rfl

theorem boolean_reads (b : Bool) : boolean.Reads (.boolean b) b := by
  intro c d h _
  cases h
  rfl

theorem integer_reads {low high n : ℤ} (wanted : String) (hlow : low ≤ n) (hhigh : n ≤ high) :
    (integer low high wanted).Reads (.integer n) n := by
  intro c d h _
  cases h
  exact if_pos ⟨hlow, hhigh⟩

theorem double_reads (x : Double) : double.Reads (.real x) x := by
  intro c d h _
  cases h
  rfl

theorem Reads.map {r : Reader α} {j : Json} {a : α} (f : α → β) (h : r.Reads j a) :
    (r.map f).Reads j (f a) := by
  intro c d hd hc
  rw [Reader.map, h c d hd hc]
  rfl

/-! ### Values that may be absent -/

/-- What is not written as null is read as something. -/
theorem Reads.optional {r : Reader α} {j : Json} {a : α} (h : r.Reads j a) (hj : j ≠ .null) :
    r.optional.Reads j (some a) := by
  intro c d hd hc
  have hread : r.optional c d = (r c d).map some := by
    cases hd with
    | null => exact absurd rfl hj
    | _ => rfl
  rw [hread, h c d hd hc]
  rfl

/-! ### Lists and tables -/

theorem itemsOf_reads {r : Reader α} {write : α → Json} {c : Context} :
    ∀ {as : List α} {items : Items}, (∀ a ∈ as, r.Reads (write a) a) →
      items.Hold (as.map write) → c.Fits (Json.itemsHeight (as.map write)) →
        r.itemsOf c items = .ok as
  | [], _, _, .nil _, _ => rfl
  | a :: as, _, h, .cons hd hmore, hc => by
      obtain ⟨ha, has⟩ := List.forall_mem_cons.1 h
      have hhead := ha c _ hd (hc.mono (Nat.le_max_left _ _))
      have hrest := itemsOf_reads has hmore (hc.mono (Nat.le_max_right _ _))
      simp only [itemsOf, hhead, hrest, settled_ok]
      rfl

theorem list_reads {r : Reader α} {write : α → Json} {as : List α}
    (h : ∀ a ∈ as, r.Reads (write a) a) : r.list.Reads (.list (as.map write)) as := by
  intro c d hd hc
  cases hd with
  | list start hitems =>
      obtain ⟨c', henter, hc'⟩ := Context.Fits.enter hc start
      simp only [Reader.list, henter]
      exact itemsOf_reads h hitems hc'

theorem list_reads_singleton {r : Reader α} {j : Json} {a : α} (h : r.Reads j a) :
    r.list.Reads (.list [j]) [a] := by
  have hitem : ∀ b ∈ [a], r.Reads j b := List.forall_mem_singleton.2 h
  exact list_reads hitem

/-- Entries in rising order come behind those of the table that are there already. -/
theorem entriesOf_reads {r : Reader α} {write : α → Json} {c : Context} :
    ∀ {es : List (String × α)} {members : Members} {t : Table α},
      (∀ e ∈ es, r.Reads (write e.2) e.2) → Rising (t.entries ++ es) →
      members.Hold (es.map fun e => (e.1, write e.2)) →
      c.Fits (Json.entriesHeight (es.map fun e => (e.1, write e.2))) →
        ∃ t', r.entriesOf c t members = .ok t' ∧ t'.entries = t.entries ++ es
  | [], _, t, _, _, .nil _, _ => ⟨t, rfl, (List.append_nil _).symm⟩
  | (k, a) :: es, _, t, h, hrising, .cons hd hmore, hc => by
      obtain ⟨ha, hes⟩ := List.forall_mem_cons.1 h
      have hbelow : ∀ e ∈ t.entries, e.1 < k :=
        fun e he => (List.pairwise_append.1 hrising).2.2 e he (k, a) List.mem_cons_self
      have hinsert : (t.insert k a).entries = t.entries ++ [(k, a)] :=
        insertEntry_of_forall_lt a hbelow
      have hnext : Rising ((t.insert k a).entries ++ es) := by
        rw [hinsert, List.append_assoc, List.singleton_append]
        exact hrising
      have hhead := ha c _ hd (hc.mono (Nat.le_max_left _ _))
      obtain ⟨t', hrest, hentries⟩ :=
        entriesOf_reads hes hnext hmore (hc.mono (Nat.le_max_right _ _))
      refine ⟨t', ?_, ?_⟩
      · simp only [entriesOf, hhead, settled_ok]
        exact hrest
      · rw [hentries, hinsert, List.append_assoc, List.singleton_append]

theorem table_reads {r : Reader α} {write : α → Json} {t : Table α}
    (h : ∀ e ∈ t.entries, r.Reads (write e.2) e.2) :
    r.table.Reads (.object (t.entries.map fun e => (e.1, write e.2))) t := by
  intro c d hd hc
  cases hd with
  | object start hmembers =>
      obtain ⟨c', henter, hc'⟩ := Context.Fits.enter hc start
      obtain ⟨t', hread, hentries⟩ := entriesOf_reads (t := .empty) h t.rising hmembers hc'
      have ht : t' = t := by
        obtain ⟨entries, rising⟩ := t
        obtain ⟨entries', rising'⟩ := t'
        simpa [Table.empty] using hentries
      simp only [Reader.table, henter]
      rw [← ht]
      exact hread

/-! ### Free values -/

theorem free_reads (v : FreeValue) : free.Reads v.json v := by
  intro c d hd hc
  have hvalue : FreeValue.ofDocument d = v := by
    obtain ⟨j, hj⟩ := v
    rw [FreeValue.ofDocument, FreeValue.mk.injEq]
    exact hd.ofDocument_eq hj
  rw [free, hd.check hc, hvalue]
  rfl

/-! ### Whole texts -/

/-- A text is read if a value is read at its beginning and only blanks stand behind it. -/
theorem readText_eq_ok_iff [RealReader] {r : Reader α} {text : String} {a : α} :
    r.readText text = .ok a ↔
      r .ofText (Document.ofText text.toList) = .ok a ∧
        (Document.ofText text.toList).stop?.map skipBlanks = some [] := by
  rw [readText, readAll, bind_eq_ok_iff]
  constructor
  · rintro ⟨b, hread, h⟩
    split at h
    · obtain rfl := Except.ok.inj h
      rename_i hstop
      exact ⟨hread, hstop⟩
    · exact nomatch h
    · exact nomatch h
  · rintro ⟨hread, hstop⟩
    exact ⟨a, hread, by rw [hstop]; rfl⟩

/-- What a reader makes of a value, it makes of the text of that value. -/
theorem Reads.readText [RealReader] {r : Reader α} {j : Json} {a : α} {l : Layout}
    (h : r.Reads j a) (hl : l.IsPlain) (hj : j.Wide) (hheight : j.height ≤ depthLimit) :
    r.readText (j.toText l) = .ok a := by
  have hdoc := Document.ofText_write hl hj
  have hread : r .ofText (Document.ofText (j.toText l).toList) = .ok a :=
    h _ _ hdoc.holds fun _ => hheight
  simp only [Reader.readText, readAll, hread, hdoc.stop]
  rfl

end Reader

end DeviceTwin.Json
