import DeviceTwin.Proofs.Json.Reader

/-!
# Values that are too deep

`Reader.Refuses r j` is what `Reader.Reads` leaves open: where there is no room for the
brackets of `j`, the reader `r` gives up on every document that holds `j`, and says that it
is for the depth. Parts in front of the one that is too deep are read as usual, so the laws
for lists and records ask for both of their parts. A written value is then refused if and
only if it opens more brackets than a text may (`Reader.Refuses.readText`).
-/

namespace DeviceTwin.Json

open DeviceTwin.Text DeviceTwin.Number

/-- What comes of meeting a bracket that there is no room for. -/
def TooDeep {α : Type} (r : Except Fault α) : Prop :=
  ∃ f : Fault, r = .error f ∧ f.cause = .tooDeep

namespace TooDeep

variable {α β : Type} {r : Except Fault α}

theorem bind (h : TooDeep r) (f : α → Except Fault β) : TooDeep (r >>= f) := by
  obtain ⟨e, rfl, he⟩ := h
  exact ⟨e, rfl, he⟩

theorem map (h : TooDeep r) (f : α → β) : TooDeep (r.map f) := by
  obtain ⟨e, rfl, he⟩ := h
  exact ⟨e, rfl, he⟩

theorem settled (h : TooDeep r) (place : Place) : TooDeep (settled place r) := by
  obtain ⟨e, rfl, he⟩ := h
  exact ⟨e.settle place, rfl, he⟩

theorem ne_ok (h : TooDeep r) (a : α) : r ≠ .ok a := by
  obtain ⟨e, rfl, -⟩ := h
  exact nofun

end TooDeep

namespace Context

theorem fits_zero (c : Context) : c.Fits 0 :=
  fun _ => Nat.zero_le _

/-- Only a text can lack room. -/
theorem source_of_not_fits {c : Context} {n : ℕ} (hc : ¬ c.Fits n) : c.source = .text := by
  by_contra hne
  exact hc fun heq => absurd heq hne

theorem fits_max {c : Context} {m n : ℕ} : c.Fits (max m n) ↔ c.Fits m ∧ c.Fits n := by
  simp only [Fits, Nat.max_le, forall_and]

/-- A bracket is met by its fault, or takes one from the room. -/
theorem enter_cases (c : Context) (start : List Char) :
    (TooDeep (c.enter start) ∧ ∀ n, ¬ c.Fits (n + 1)) ∨
      ∃ c', c.enter start = .ok c' ∧ ∀ n, c'.Fits n ↔ c.Fits (n + 1) := by
  by_cases hc : c.Fits 1
  · obtain ⟨c', henter, -⟩ := hc.enter start
    exact .inr ⟨c', henter, fun _ => fits_of_enter henter⟩
  · have htext : c.source = .text := source_of_not_fits hc
    have hroom : c.room = 0 := Nat.lt_one_iff.1 (Nat.lt_of_not_le fun hle => hc fun _ => hle)
    refine .inl ⟨⟨.behindNext .tooDeep start, ?_, rfl⟩, fun n h => hc (h.mono (Nat.succ_pos n))⟩
    rw [enter, htext, hroom]

/-- What is refused inside of a bracket is refused with the bracket. -/
theorem enter_tooDeep {α : Type} {c : Context} {n : ℕ} {inside : Context → Except Fault α}
    (hc : ¬ c.Fits (n + 1)) (start : List Char)
    (h : ∀ c' : Context, ¬ c'.Fits n → TooDeep (inside c')) :
    TooDeep (c.enter start >>= inside) := by
  rcases c.enter_cases start with ⟨hdeep, -⟩ | ⟨c', henter, hfits⟩
  · exact hdeep.bind inside
  · rw [henter, ok_bind]
    exact h c' fun hc' => hc ((hfits n).1 hc')

end Context

/-! ### Reading through -/

mutual

theorem Document.Holds.check_tooDeep :
    ∀ {d : Document} {j : Json} {c : Context}, d.Holds j → ¬ c.Fits j.height →
      TooDeep (d.check c)
  | _, _, c, .null _ _, hc | _, _, c, .boolean _ _ _, hc | _, _, c, .integer _ _ _, hc
  | _, _, c, .real _ _ _, hc | _, _, c, .text _ _ _, hc => absurd c.fits_zero hc
  | _, _, _, .list start h, hc => by
      rw [Document.check]
      exact Context.enter_tooDeep hc start fun _ hc' => Items.Hold.check_tooDeep h hc'
  | _, _, _, .object start h, hc => by
      rw [Document.check]
      exact Context.enter_tooDeep hc start fun _ hc' => Members.Hold.check_tooDeep h hc'

theorem Items.Hold.check_tooDeep :
    ∀ {items : Items} {js : List Json} {c : Context}, items.Hold js →
      ¬ c.Fits (Json.itemsHeight js) → TooDeep (Document.checkItems c items)
  | _, _, c, .nil _, hc => absurd c.fits_zero hc
  | _, _, c, .cons (j := j) h hmore, hc => by
      rw [Document.checkItems]
      by_cases hhead : c.Fits j.height
      · rw [h.check hhead, ok_bind]
        exact Items.Hold.check_tooDeep hmore fun hrest => hc (Context.fits_max.2 ⟨hhead, hrest⟩)
      · exact (h.check_tooDeep hhead).bind _

theorem Members.Hold.check_tooDeep :
    ∀ {members : Members} {es : List (String × Json)} {c : Context}, members.Hold es →
      ¬ c.Fits (Json.entriesHeight es) → TooDeep (Document.checkMembers c members)
  | _, _, c, .nil _, hc => absurd c.fits_zero hc
  | _, _, c, .cons (j := j) h hmore, hc => by
      simp only [Document.checkMembers, ok_bind]
      by_cases hhead : c.Fits j.height
      · rw [h.check hhead, ok_bind]
        exact Members.Hold.check_tooDeep hmore fun hrest => hc (Context.fits_max.2 ⟨hhead, hrest⟩)
      · exact (h.check_tooDeep hhead).bind _

end

namespace Reader

variable {α : Type}

/-- The reader gives up on every document that holds the value and is too deep. -/
def Refuses (r : Reader α) (j : Json) : Prop :=
  ∀ (c : Context) (d : Document), d.Holds j → ¬ c.Fits j.height → TooDeep (r c d)

/-- A value without brackets always fits. -/
theorem refuses_of_height_eq_zero {r : Reader α} {j : Json} (hj : j.height = 0) :
    r.Refuses j := by
  intro c d _ hc
  rw [hj] at hc
  exact absurd c.fits_zero hc

theorem Refuses.optional {r : Reader α} {j : Json} (h : r.Refuses j) : r.optional.Refuses j := by
  intro c d hd hc
  have hread : r.optional c d = (r c d).map some := by
    cases hd with
    | null => exact absurd c.fits_zero hc
    | _ => rfl
  rw [hread]
  exact (h c d hd hc).map some

theorem itemsOf_tooDeep {r : Reader α} {write : α → Json} {c : Context} :
    ∀ {as : List α} {items : Items},
      (∀ a ∈ as, r.Reads (write a) a ∧ r.Refuses (write a)) → items.Hold (as.map write) →
        ¬ c.Fits (Json.itemsHeight (as.map write)) → TooDeep (r.itemsOf c items)
  | [], _, _, .nil _, hc => absurd c.fits_zero hc
  | a :: as, .item d more, h, .cons hd hmore, hc => by
      obtain ⟨⟨hreads, hrefuses⟩, has⟩ := List.forall_mem_cons.1 h
      rw [itemsOf]
      by_cases hhead : c.Fits (write a).height
      · have hrest : ¬ c.Fits (Json.itemsHeight (as.map write)) :=
          fun hrest => hc (Context.fits_max.2 ⟨hhead, hrest⟩)
        rw [hreads c d hd hhead, settled_ok, ok_bind]
        exact (itemsOf_tooDeep has hmore hrest).bind _
      · exact ((hrefuses c d hd hhead).settled _).bind _

theorem list_refuses {r : Reader α} {write : α → Json} {as : List α}
    (h : ∀ a ∈ as, r.Reads (write a) a ∧ r.Refuses (write a)) :
    r.list.Refuses (.list (as.map write)) := by
  intro c d hd hc
  cases hd with
  | list start hitems =>
      exact Context.enter_tooDeep hc start fun _ hc' => itemsOf_tooDeep h hitems hc'

theorem list_refuses_singleton {r : Reader α} {j : Json} {a : α} (h : r.Reads j a)
    (h' : r.Refuses j) : r.list.Refuses (.list [j]) := by
  have hitem : ∀ b ∈ [a], r.Reads j b ∧ r.Refuses j := List.forall_mem_singleton.2 ⟨h, h'⟩
  exact list_refuses hitem

/-- In a table of values without brackets only its own bracket can be too deep. -/
theorem table_refuses {r : Reader α} {es : List (String × Json)}
    (h : Json.entriesHeight es = 0) : r.table.Refuses (.object es) := by
  intro c d hd hc
  cases hd with
  | object start _ =>
      refine Context.enter_tooDeep hc start fun c' hc' => absurd ?_ hc'
      rw [h]
      exact c'.fits_zero

theorem free_refuses (j : Json) : free.Refuses j :=
  fun _ _ hd hc => (hd.check_tooDeep hc).bind _

/-- The text of a value is refused if it opens more brackets at once than a text may. -/
theorem Refuses.readText [RealReader] {r : Reader α} {j : Json} {l : Layout} (h : r.Refuses j)
    (hl : l.IsPlain) (hj : j.Wide) (hheight : depthLimit < j.height) :
    TooDeep (r.readText (j.toText l)) := by
  have hdoc := Document.ofText_write hl hj
  have hread : TooDeep (r .ofText (Document.ofText (j.toText l).toList)) :=
    h _ _ hdoc.holds fun hfits => Nat.not_le.2 hheight (hfits rfl)
  exact hread.bind _

end Reader

end DeviceTwin.Json
