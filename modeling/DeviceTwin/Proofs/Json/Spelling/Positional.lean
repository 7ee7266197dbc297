import DeviceTwin.Proofs.Json.Spelling.Change

/-!
# Records by position and by key

The values of a record stand in a list one after the other or in an object under the keys of
their fields. `Gives fs σ τ` says that `τ` gives the field at `i` the value `σ i` in the one form
or in the other; nothing is given to a field that is left out, which in a list only the last
ones can be. The form does not count: from both of them the same slots are filled
(`Slots.Filled`), so a record whose keys differ is read alike from both
(`Spelling.Gives.read_eq_ok_iff`).
-/

namespace DeviceTwin.Json

open Spelling

theorem Field.IsOptional.read_null {f : Field} (h : f.IsOptional) (c : Context)
    (start stop : List Char) : ∃ v, f.read c (.scalar start stop .null) = .ok v := by
  obtain ⟨key, α, codec, rfl⟩ := h
  exact ⟨none, rfl⟩

/-! ### Filled slots -/

namespace Slots

/-- The value of the field at `i`. -/
def get : {fs : List Field} → Slots fs → (i : ℕ) → (h : i < fs.length) → fs[i].Value
  | _ :: _, (v, _), 0, _ => v
  | _ :: _, (_, vs), i + 1, h => vs.get i (Nat.lt_of_succ_lt_succ h)

/-- Each field gets its value from what `σ` has for it. -/
def Filled [RealReader] (c : Context) (fs : List Field) (σ : ℕ → Option Spelling)
    (vs : Slots fs) : Prop :=
  ∀ (i : ℕ) (h : i < fs.length), fs[i].Gets c ((σ i).toList.map document) (vs.get i h)

variable {c : Context} {f : Field} {fs : List Field} {σ : ℕ → Option Spelling}

theorem filled_nil [RealReader] : Filled c [] σ () :=
  fun i h => absurd h (Nat.not_lt_zero i)

theorem filled_cons_iff [RealReader] {v : f.Value} {vs : Slots fs} :
    Filled c (f :: fs) σ (v, vs) ↔
      f.Gets c ((σ 0).toList.map document) v ∧ Filled c fs (fun i => σ (i + 1)) vs := by
  constructor
  · intro hfilled
    exact ⟨hfilled 0 (Nat.succ_pos _), fun i h => hfilled (i + 1) (Nat.succ_lt_succ h)⟩
  · rintro ⟨hfirst, hothers⟩ (- | i) h
    · exact hfirst
    · exact hothers i (Nat.lt_of_succ_lt_succ h)

/-- A list fills the slots from the front. -/
theorem listed_iff_filled [RealReader] :
    ∀ {fs : List Field} {τs : List Spelling} {vs : Slots fs}, τs.length ≤ fs.length →
      (Listed c fs (itemsDocument τs) vs ↔ Filled c fs (fun i => τs[i]?) vs)
  | [], [], (), _ => iff_of_true trivial filled_nil
  | f :: fs, [], (v, vs), _ => by
      have hrest : Listed c fs (itemsDocument []) vs ↔ _ := listed_iff_filled (Nat.zero_le _)
      rw [filled_cons_iff]
      exact and_congr_right fun _ => hrest
  | f :: fs, τ :: τs, (v, vs), h => by
      rw [filled_cons_iff]
      exact and_congr_right fun _ => listed_iff_filled (Nat.le_of_succ_le_succ h)

/-- An object fills the slots with what stands under the keys of the fields. -/
theorem gathered_iff_filled [RealReader] :
    ∀ {fs : List Field} {σ : ℕ → Option Spelling} {ms : List Member} {vs : Slots fs},
      (fs.map Field.key).Nodup → (∀ m ∈ ms, Quoted.Part.Names m.1.parts) →
        (∀ (i : ℕ) (h : i < fs.length), under fs[i].key ms = (σ i).toList.map document) →
          (Gathered c fs (membersDocument ms) vs ↔ Filled c fs σ vs)
  | [], _, _, (), _, hnames, _ => iff_of_true (passed_membersDocument.2 hnames) filled_nil
  | f :: fs, σ, ms, (v, vs), hkeys, hnames, hunder => by
      obtain ⟨hfresh, hkeys⟩ := List.nodup_cons.1 hkeys
      rw [filled_cons_iff, Gathered, under_membersDocument, without_membersDocument,
        show under f.key ms = _ from hunder 0 (Nat.succ_pos _)]
      refine and_congr_right fun _ =>
        gathered_iff_filled hkeys (names_filter_iff.2 hnames) fun i h => ?_
      have hne : f.key ≠ fs[i].key := fun heq =>
        hfresh (heq ▸ List.mem_map_of_mem (List.getElem_mem h))
      rw [under_filter_of_ne hne]
      exact hunder (i + 1) (Nat.succ_lt_succ h)

/-- A field that is left out takes what its description says. -/
theorem Filled.absent_eq [RealReader] {vs : Slots fs} (hfilled : Filled c fs σ vs) {i : ℕ}
    (h : i < fs.length) (hσ : σ i = none) : fs[i].absent = some (vs.get i h) := by
  have hgets := hfilled i h
  rwa [hσ] at hgets

/-- A field that is given a value reads it. -/
theorem Filled.read_eq [RealReader] {vs : Slots fs} (hfilled : Filled c fs σ vs) {i : ℕ}
    (h : i < fs.length) {τ : Spelling} (hσ : σ i = some τ) :
    fs[i].read c τ.document = .ok (vs.get i h) := by
  have hgets := hfilled i h
  rwa [hσ] at hgets

/-- Null fills the slot of an optional field as nothing does. -/
theorem filled_update_none_iff [RealReader] {vs : Slots fs} {i : ℕ} (h : i < fs.length)
    (hoptional : fs[i].IsOptional) {before behind : Blanks}
    (hσ : σ i = some (.scalar before .null behind)) :
    Filled c fs (Function.update σ i none) vs ↔ Filled c fs σ vs := by
  refine forall₂_congr fun j hj => ?_
  by_cases hji : j = i
  · subst hji
    rw [Function.update_self, hσ]
    exact hoptional.gets_null_iff.symm
  · rw [Function.update_of_ne hji]

end Slots

/-! ### Both forms -/

namespace Spelling

/-- A list with the values of the first fields, or an object with one member for each value that
is given, under the key of its field. -/
inductive Gives (fs : List Field) : (ℕ → Option Spelling) → Spelling → Prop
  | byPosition {before gap behind : Blanks} {τs : List Spelling} (h : τs.length ≤ fs.length) :
      Gives fs (fun i => τs[i]?) (.list before gap τs behind)
  | byKey {before gap behind : Blanks} {σ : ℕ → Option Spelling} {ms : List Member}
      (hkeys : ∀ m ∈ ms, ∃ f ∈ fs, m.1.name = some f.key)
      (hvalues : ∀ (i : ℕ) (h : i < fs.length),
        (ms.filter fun m => m.1.name = some fs[i].key).map Prod.snd = (σ i).toList) :
      Gives fs σ (.object before gap ms behind)

namespace Gives

variable {fs : List Field} {σ : ℕ → Option Spelling} {τ : Spelling}

/-- A record is read from what its fields are given. -/
theorem read_eq_ok_iff [RealReader] {α : Type} {r : Record α} {c : Context} {a : α}
    (hkeys : (r.fields.map Field.key).Nodup) (h : Gives r.fields σ τ) :
    r.read c τ.document = .ok a ↔
      ∃ c', c.enter [] = .ok c' ∧ ∃ vs, Slots.Filled c' r.fields σ vs ∧ r.build vs = a := by
  cases h with
  | byPosition hlength =>
      simp only [document, Record.read_list_eq_ok_iff, Slots.listed_iff_filled hlength]
  | @byKey _ _ _ _ ms hmembers hvalues =>
      have hnames : ∀ m ∈ ms, Quoted.Part.Names m.1.parts := fun m hm =>
        (hmembers m hm).elim fun f hf => ⟨f.key, hf.2⟩
      have hunder : ∀ (i : ℕ) (h : i < r.fields.length),
          under r.fields[i].key ms = (σ i).toList.map document := by
        intro i h
        rw [under, ← hvalues i h, List.map_map]
        rfl
      simp only [document, Record.read_object_eq_ok_iff,
        Slots.gathered_iff_filled hkeys hnames hunder]

/-- All values of an object are given to fields. -/
theorem forall_mem_members_iff {P : Spelling → Prop} {ms : List Member}
    (hkeys : ∀ m ∈ ms, ∃ f ∈ fs, m.1.name = some f.key)
    (hvalues : ∀ (i : ℕ) (h : i < fs.length),
      (ms.filter fun m => m.1.name = some fs[i].key).map Prod.snd = (σ i).toList) :
    (∀ m ∈ ms, P m.2) ↔ ∀ i < fs.length, ∀ ρ ∈ σ i, P ρ := by
  constructor
  · intro hms i h ρ hρ
    have hmem : ρ ∈ (ms.filter fun m => m.1.name = some fs[i].key).map Prod.snd := by
      rw [hvalues i h]
      exact Option.mem_toList.2 hρ
    obtain ⟨m, hm, rfl⟩ := List.mem_map.1 hmem
    exact hms m (List.mem_filter.1 hm).1
  · intro hσ m hm
    obtain ⟨f, hf, hkey⟩ := hkeys m hm
    obtain ⟨i, h, rfl⟩ := List.getElem_of_mem hf
    refine hσ i h m.2 (Option.mem_toList.1 ?_)
    rw [← hvalues i h]
    exact List.mem_map_of_mem (List.mem_filter.2 ⟨hm, by simpa using hkey⟩)

/-- All values of a list are given to fields. -/
theorem forall_mem_items_iff {P : Spelling → Prop} {τs : List Spelling}
    (hlength : τs.length ≤ fs.length) :
    (∀ ρ ∈ τs, P ρ) ↔ ∀ i < fs.length, ∀ ρ ∈ τs[i]?, P ρ := by
  constructor
  · exact fun hτs i _ ρ hρ => hτs ρ (List.mem_of_getElem? hρ)
  · intro hτs ρ hρ
    obtain ⟨i, h, rfl⟩ := List.getElem_of_mem hρ
    exact hτs i (h.trans_le hlength) _ (List.getElem?_eq_getElem h)

theorem height_pos [RealReader] (h : Gives fs σ τ) : 0 < τ.height := by
  cases h <;> exact Nat.succ_pos _

theorem height_le_iff [RealReader] (h : Gives fs σ τ) {n : ℕ} :
    τ.height ≤ n + 1 ↔ ∀ i < fs.length, ∀ ρ ∈ σ i, ρ.height ≤ n := by
  cases h with
  | byPosition hlength =>
      rw [← forall_mem_items_iff hlength, ← itemsHeight_le_iff]
      exact Nat.add_le_add_iff_right
  | byKey hkeys hvalues =>
      rw [← forall_mem_members_iff (P := fun ρ => ρ.height ≤ n) hkeys hvalues,
        ← membersHeight_le_iff]
      exact Nat.add_le_add_iff_right

theorem readable_iff [RealReader] (h : Gives fs σ τ) :
    τ.Readable ↔ ∀ i < fs.length, ∀ ρ ∈ σ i, ρ.Readable := by
  cases h with
  | byPosition hlength => rw [← forall_mem_items_iff hlength, readable_list_iff]
  | byKey hkeys hvalues =>
      rw [← forall_mem_members_iff (P := Readable) hkeys hvalues, readable_object_iff]
      refine and_iff_right fun m hm => ?_
      obtain ⟨f, -, hf⟩ := hkeys m hm
      exact ⟨f.key, hf⟩

end Gives

/-- What is true of a value is true of all that is given with it if it is without it. -/
theorem forall_update_none_iff {P : Spelling → Prop} {σ : ℕ → Option Spelling} {n i : ℕ}
    {ρ : Spelling} (hσ : σ i = some ρ) (hρ : P ρ) :
    (∀ j < n, ∀ ρ ∈ Function.update σ i none j, P ρ) ↔ ∀ j < n, ∀ ρ ∈ σ j, P ρ := by
  refine forall₂_congr fun j _ => ?_
  by_cases hji : j = i
  · subst hji
    rw [Function.update_self, hσ]
    simpa using hρ
  · rw [Function.update_of_ne hji]

end Spelling

end DeviceTwin.Json
