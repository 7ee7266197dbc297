import DeviceTwin.Proofs.Json.Gathering

/-!
# Readers that agree on low documents

A reader that is built for documents of a certain height gives the same as one that is built
for higher ones, as long as the document is low enough (`Reader.AgreeBelow`). Each bracket
around adds one to the height that is low enough: records whose fields agree below `n` agree
below `n + 1` (`Record.agreeBelow`), and so do lists.
-/

namespace DeviceTwin.Json

variable {n : ℕ}

namespace Reader

variable {α : Type} {r r' : Reader α}

/-- The readers give the same for every document that is lower than `n`. -/
def AgreeBelow (n : ℕ) (r r' : Reader α) : Prop :=
  ∀ (c : Context) (d : Document) (a : α), d.height < n → (r c d = .ok a ↔ r' c d = .ok a)

theorem AgreeBelow.refl (r : Reader α) : AgreeBelow n r r :=
  fun _ _ _ _ => Iff.rfl

theorem itemsOf_congr (h : AgreeBelow n r r') (c : Context) :
    ∀ {items : Items} {as : List α}, Document.itemsHeight items < n →
      (r.itemsOf c items = .ok as ↔ r'.itemsOf c items = .ok as)
  | .item d more, as, hheight => by
      obtain ⟨hd, hmore⟩ := Nat.max_lt.1 hheight
      simp only [itemsOf, bind_eq_ok_iff, settled_eq_ok_iff, h c d _ hd,
        itemsOf_congr h c hmore]
  | .close _, _, _ | .stray _, _, _ | .trailingComma _, _, _ | .endAfterComma, _, _
  | .unfinished, _, _ => Iff.rfl

theorem AgreeBelow.list (h : AgreeBelow n r r') : AgreeBelow (n + 1) r.list r'.list := by
  intro c d as hd
  match d with
  | .list start items =>
      simp only [Reader.list, bind_eq_ok_iff, itemsOf_congr h _ (Nat.lt_of_succ_lt_succ hd)]
  | .scalar .. | .object .. | .broken .. => exact Iff.rfl

end Reader

namespace Slots

variable {fs fs' : List Field}

/-- An object or a list that is lower than `n` gives `fs` the one values if and only if it gives
`fs'` the others. -/
structure AgreeBelow (n : ℕ) (vs : Slots fs) (vs' : Slots fs') : Prop where
  gathered : ∀ (c : Context) (members : Members), Document.membersHeight members < n →
    (Gathered c fs members vs ↔ Gathered c fs' members vs')
  listed : ∀ (c : Context) (items : Items), Document.itemsHeight items < n →
    (Listed c fs items vs ↔ Listed c fs' items vs')

theorem AgreeBelow.nil : @AgreeBelow [] [] n () () :=
  ⟨fun _ _ _ => Iff.rfl, fun _ _ _ => Iff.rfl⟩

/-- A field may be read in another way in front of other fields. -/
theorem AgreeBelow.cons {key : String} {α : Type} {absent : Option α} {read read' : Reader α}
    {write write' : α → Option Json} {vs : Slots fs} {vs' : Slots fs'}
    (hread : Reader.AgreeBelow n read read') (v : α) (h : AgreeBelow n vs vs') :
    @AgreeBelow (⟨key, α, absent, read, write⟩ :: fs) (⟨key, α, absent, read', write'⟩ :: fs') n
      (v, vs) (v, vs') := by
  constructor
  · intro c members hheight
    refine and_congr ?_
      (h.gathered c _ (Nat.lt_of_le_of_lt (Members.height_without_le key members) hheight))
    have hlow : ∀ d ∈ members.under key, d.height < n := fun d hd =>
      Nat.lt_of_le_of_lt (Members.height_le_of_mem_under hd) hheight
    dsimp only
    match hds : members.under key with
    | [] => exact Iff.rfl
    | [d] => exact hread c d v (hlow d (hds ▸ List.mem_singleton_self d))
    | _ :: _ :: _ => exact Iff.rfl
  · intro c items hheight
    match items with
    | .close stop => exact and_congr_right fun _ => h.listed c (.close stop) hheight
    | .item d more =>
        obtain ⟨hd, hmore⟩ := Nat.max_lt.1 hheight
        exact and_congr (hread c d v hd) (h.listed c more hmore)
    | .stray _ | .trailingComma _ | .endAfterComma | .unfinished => exact Iff.rfl

theorem AgreeBelow.cons_same {f : Field} {vs : Slots fs} {vs' : Slots fs'} (v : f.Value)
    (h : AgreeBelow n vs vs') : @AgreeBelow (f :: fs) (f :: fs') n (v, vs) (v, vs') :=
  .cons (.refl f.read) v h

end Slots

/-- Records agree below the height of their brackets if their fields agree inside of them. -/
theorem Record.agreeBelow {α : Type} {r r' : Record α} {e : Slots r.fields → Slots r'.fields}
    (he : e.Surjective) (hbuild : ∀ vs, r'.build (e vs) = r.build vs)
    (h : ∀ vs, Slots.AgreeBelow n vs (e vs)) : Reader.AgreeBelow (n + 1) r.read r'.read := by
  intro c d a hd
  match d with
  | .object start members =>
      rw [read_object_eq_ok_iff, read_object_eq_ok_iff]
      refine exists_congr fun c' => and_congr_right fun _ => ?_
      rw [he.exists]
      refine exists_congr fun vs => ?_
      rw [hbuild vs, (h vs).gathered c' members (Nat.lt_of_succ_lt_succ hd)]
  | .list start items =>
      rw [read_list_eq_ok_iff, read_list_eq_ok_iff]
      refine exists_congr fun c' => and_congr_right fun _ => ?_
      rw [he.exists]
      refine exists_congr fun vs => ?_
      rw [hbuild vs, (h vs).listed c' items (Nat.lt_of_succ_lt_succ hd)]
  | .scalar .. | .broken .. => exact error_eq_ok_iff_error

end DeviceTwin.Json
