import DeviceTwin.Json.Document
import DeviceTwin.Text.Table

/-!
# JSON values

`Json` is a value to be written: its objects list their members in the order of
the writing. `FreeValue` is a value that a device description carries without
looking into it. It is kept in canonical form, with the members of each object in
the order of their keys and every key once, so equal values are written alike.
-/

namespace DeviceTwin

open DeviceTwin.Text DeviceTwin.Number DeviceTwin.Json

inductive Json where
  | null
  | boolean (b : Bool)
  | integer (n : Int)
  | real (x : Double)
  | text (s : String)
  | list (items : List Json)
  | object (entries : List (String × Json))

namespace Json

instance : Inhabited Json := ⟨null⟩

mutual

/-- Equality as a computation. -/
def same : Json → Json → Bool
  | null, null => true
  | boolean a, boolean b => a == b
  | integer a, integer b => a == b
  | real a, real b => a == b
  | text a, text b => a == b
  | list a, list b => sameItems a b
  | object a, object b => sameEntries a b
  | _, _ => false

def sameItems : List Json → List Json → Bool
  | [], [] => true
  | a :: as, b :: bs => same a b && sameItems as bs
  | _, _ => false

def sameEntries : List (String × Json) → List (String × Json) → Bool
  | [], [] => true
  | (k, a) :: as, (l, b) :: bs => k == l && same a b && sameEntries as bs
  | _, _ => false

end

mutual

theorem same_iff : ∀ a b : Json, same a b = true ↔ a = b
  | null, b => by cases b <;> simp [same]
  | boolean _, b => by cases b <;> simp [same]
  | integer _, b => by cases b <;> simp [same]
  | real _, b => by cases b <;> simp [same]
  | text _, b => by cases b <;> simp [same]
  | list a, b => by cases b <;> simp [same, sameItems_iff a]
  | object a, b => by cases b <;> simp [same, sameEntries_iff a]

theorem sameItems_iff : ∀ a b : List Json, sameItems a b = true ↔ a = b
  | [], b => by cases b <;> simp [sameItems]
  | a :: as, b => by
    cases b with
    | nil => simp [sameItems]
    | cons b bs => simp [sameItems, same_iff a b, sameItems_iff as bs]

theorem sameEntries_iff : ∀ a b : List (String × Json), sameEntries a b = true ↔ a = b
  | [], b => by cases b <;> simp [sameEntries]
  | (k, a) :: as, b => by
    cases b with
    | nil => simp [sameEntries]
    | cons b bs =>
      obtain ⟨l, b⟩ := b
      simp [sameEntries, same_iff a b, sameEntries_iff as bs]

end

instance : DecidableEq Json := fun a b => decidable_of_iff _ (same_iff a b)

def count (n : Nat) : Json := integer n

mutual

/-- Integers fit in 64 bits and the keys of every object rise. -/
def Canonical : Json → Prop
  | integer n => IsWide64 n
  | list items => CanonicalItems items
  | object entries => Rising entries ∧ CanonicalEntries entries
  | _ => True

def CanonicalItems : List Json → Prop
  | [] => True
  | j :: js => Canonical j ∧ CanonicalItems js

def CanonicalEntries : List (String × Json) → Prop
  | [] => True
  | (_, j) :: es => Canonical j ∧ CanonicalEntries es

end

theorem CanonicalEntries.insertEntry {k : String} {j : Json} (hj : j.Canonical) :
    ∀ {es : List (String × Json)}, CanonicalEntries es →
      CanonicalEntries (insertEntry k j es)
  | [], _ => by simp [Text.insertEntry, CanonicalEntries, hj]
  | (l, i) :: es, h => by
    simp only [CanonicalEntries] at h
    unfold Text.insertEntry
    split
    · simp [CanonicalEntries, hj, h]
    · split
      · simp [CanonicalEntries, hj, h]
      · simp [CanonicalEntries, h, CanonicalEntries.insertEntry hj h.2]

mutual

/-- The value of a document in canonical form. A part that stands for no value
counts as null. -/
def ofDocument : Document → Json
  | .scalar _ _ value =>
    match value with
    | .null => null
    | .boolean b => boolean b
    | .number (.integer n) => integer n.val
    | .number (.real x) => real x
    | .number (.tooLarge _) => null
    | .text (.ok s) => text s
    | .text (.error _) => null
  | .list _ items => list (ofItems items)
  | .object _ members => object (ofMembers [] members)
  | .broken .. => null

def ofItems : Items → List Json
  | .item d more => ofDocument d :: ofItems more
  | _ => []

/-- Members are put into a table in the order of the text, so of several under one
key the last one stays. -/
def ofMembers (entries : List (String × Json)) : Members → List (String × Json)
  | .member ⟨.ok k, _⟩ d more => ofMembers (insertEntry k (ofDocument d) entries) more
  | .member ⟨.error _, _⟩ _ more => ofMembers entries more
  | _ => entries

end

mutual

theorem canonical_ofDocument : ∀ d : Document, (ofDocument d).Canonical
  | .scalar _ _ value => by
    unfold ofDocument
    split <;> simp only [Canonical]
    rename_i n
    exact n.fits
  | .list _ items => by
    simp only [ofDocument, Canonical]
    exact canonical_ofItems items
  | .object _ members => by
    simp only [ofDocument, Canonical]
    exact canonical_ofMembers members [] List.Pairwise.nil (by simp [CanonicalEntries])
  | .broken .. => by simp [ofDocument, Canonical]

theorem canonical_ofItems : ∀ items : Items, CanonicalItems (ofItems items)
  | .item d more => by
    simp only [ofItems, CanonicalItems]
    exact ⟨canonical_ofDocument d, canonical_ofItems more⟩
  | .close _ | .stray _ | .trailingComma _ | .endAfterComma | .unfinished => by
    simp [ofItems, CanonicalItems]

theorem canonical_ofMembers : ∀ (members : Members) (entries : List (String × Json)),
    Rising entries → CanonicalEntries entries →
      Rising (ofMembers entries members) ∧ CanonicalEntries (ofMembers entries members)
  | .member ⟨.ok k, _⟩ d more, entries, hr, hc => by
    simp only [ofMembers]
    exact canonical_ofMembers more _ (hr.insertEntry k _)
      (hc.insertEntry (canonical_ofDocument d))
  | .member ⟨.error _, _⟩ d more, entries, hr, hc => by
    simp only [ofMembers]
    exact canonical_ofMembers more _ hr hc
  | .close _, _, hr, hc | .stray _, _, hr, hc | .trailingComma _, _, hr, hc
  | .endAfterComma, _, hr, hc | .noKey _, _, hr, hc | .noColon .., _, hr, hc
  | .brokenKey .., _, hr, hc | .unfinished, _, hr, hc => by
    simp [ofMembers, hr, hc]

end

end Json

structure FreeValue where
  json : Json
  canonical : json.Canonical

namespace FreeValue

instance : DecidableEq FreeValue := fun a b =>
  decidable_of_iff (a.json = b.json) (by cases a; cases b; simp)

def null : FreeValue := ⟨.null, by simp [Json.Canonical]⟩

instance : Inhabited FreeValue := ⟨null⟩

def ofDocument (d : Document) : FreeValue :=
  ⟨Json.ofDocument d, Json.canonical_ofDocument d⟩

end FreeValue

end DeviceTwin
