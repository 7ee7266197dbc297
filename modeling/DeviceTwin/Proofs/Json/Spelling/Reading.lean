import DeviceTwin.Proofs.Json.Origin
import DeviceTwin.Proofs.Json.Placeless
import DeviceTwin.Proofs.Json.Spelling.Text

/-!
# What readers make of a spelling

A reader that does not mind places makes of a text what it makes of the document that is
spelled (`Spelling.Spells.readText_eq_ok_iff`). Such a document is always complete, so it can
be passed over; it can be read through if its brackets find room, its numbers are near to a
double and its texts name characters (`Spelling.check_document_iff`).
-/

namespace DeviceTwin.Json

open DeviceTwin.Number

/-- The number is an integer of 64 bits or near to a double. -/
def Numeral.Spelled.Representable [RealReader] (s : Numeral.Spelled) : Prop :=
  ∀ seen, s.numeral.number [] ≠ .tooLarge seen

/-- The parts name a text: no half of a pair of units stands alone. -/
def Quoted.Part.Names (ps : List Quoted.Part) : Prop :=
  ∃ s, Quoted.Part.named ps = some s

namespace Spelling

/-! ### Whole texts -/

/-- The text, from its first character to its last. -/
def Spells (τ : Spelling) (text : String) : Prop :=
  τ.spell = text.toList

theorem spells_of_eq {τ : Spelling} {text : String} (h : String.ofList τ.spell = text) :
    τ.Spells text := by
  rw [Spells, ← h, String.toList_ofList]

theorem skipBlanks_eq_nil {bs : List Char} (h : ∀ c ∈ bs, isBlank c = true) :
    skipBlanks bs = [] :=
  List.dropWhile_eq_nil_iff.2 h

section Reading

variable [RealReader]

theorem Spells.readText_eq_ok_iff {α : Type} {r : Reader α} (hr : r.Placeless) {τ : Spelling}
    {text : String} (h : τ.Spells text) {a : α} :
    r.readText text = .ok a ↔ r .ofText τ.document = .ok a := by
  have hread := Document.valueAt_spell τ (3 * τ.spell.length + 3) [] endsNumeral_nil
    (by rw [List.append_nil]; omega)
  rw [List.append_nil, List.append_nil, h] at hread
  have hstop : (Document.ofText text.toList).stop?.map skipBlanks = some [] := by
    rw [Document.ofText, hread.stop, Option.map_some, skipBlanks_eq_nil τ.behind.blank]
  rw [Reader.readText_eq_ok_iff, and_iff_left hstop, ← hr, Document.ofText, hread.bare]

/-- A text that is read has a spelling. -/
theorem exists_spells {α : Type} {r : Reader α} {text : String} {a : α}
    (h : r.readText text = .ok a) : ∃ τ : Spelling, τ.Spells text := by
  obtain ⟨-, hstop⟩ := Reader.readText_eq_ok_iff.1 h
  obtain ⟨rest, hrest, hblank⟩ := Option.map_eq_some_iff.1 hstop
  obtain ⟨τ, hτ, -⟩ := Document.isSpelled_valueAt _ _ _ hrest
  have hbs : ∀ c ∈ rest, isBlank c = true := List.dropWhile_eq_nil_iff.1 hblank
  exact ⟨τ.pad ⟨rest, hbs⟩, (τ.spell_pad _).trans hτ.symm⟩

/-! ### Passing over and reading through -/

/-- The number of brackets nested in each other. -/
def height (τ : Spelling) : ℕ :=
  τ.document.height

mutual

theorem skip_document : ∀ τ : Spelling, τ.document.skip = .ok ()
  | scalar .. => rfl
  | list _ _ items _ => skip_itemsDocument items
  | object _ _ members _ => skip_membersDocument members

theorem skip_itemsDocument : ∀ τs : List Spelling, Document.skipItems (itemsDocument τs) = .ok ()
  | [] => rfl
  | τ :: τs => bind_eq_ok_iff.2 ⟨(), skip_document τ, skip_itemsDocument τs⟩

theorem skip_membersDocument :
    ∀ ms : List Member, Document.skipMembers (membersDocument ms) = .ok ()
  | [] => rfl
  | (_, τ) :: ms => bind_eq_ok_iff.2 ⟨(), skip_document τ, skip_membersDocument ms⟩

end

end Reading

mutual

/-- Every number satisfies `p`, and every text and key `q`. -/
def All (p : Numeral.Spelled → Prop) (q : List Quoted.Part → Prop) : Spelling → Prop
  | scalar _ t _ =>
    match t with
    | .number s => p s
    | .text ps => q ps
    | _ => True
  | list _ _ items _ => AllItems p q items
  | object _ _ members _ => AllMembers p q members

def AllItems (p : Numeral.Spelled → Prop) (q : List Quoted.Part → Prop) : List Spelling → Prop
  | [] => True
  | τ :: τs => All p q τ ∧ AllItems p q τs

def AllMembers (p : Numeral.Spelled → Prop) (q : List Quoted.Part → Prop) : List Member → Prop
  | [] => True
  | (k, τ) :: ms => q k.parts ∧ All p q τ ∧ AllMembers p q ms

end

theorem allItems_iff {p : Numeral.Spelled → Prop} {q : List Quoted.Part → Prop}
    {τs : List Spelling} : AllItems p q τs ↔ ∀ τ ∈ τs, τ.All p q := by
  induction τs with
  | nil => simp [AllItems]
  | cons τ τs ih => rw [AllItems, ih, List.forall_mem_cons]

theorem allMembers_iff {p : Numeral.Spelled → Prop} {q : List Quoted.Part → Prop}
    {ms : List Member} : AllMembers p q ms ↔ ∀ m ∈ ms, q m.1.parts ∧ m.2.All p q := by
  induction ms with
  | nil => simp [AllMembers]
  | cons m ms ih => rw [AllMembers, ih, List.forall_mem_cons, and_assoc]

/-- What is read through inside of a bracket needs room for one bracket more. -/
theorem enter_check_iff {c : Context} {start : List Char} {P : Prop} {n : ℕ}
    {inside : Context → Except Fault Unit} (h : ∀ c', inside c' = .ok () ↔ P ∧ c'.Fits n) :
    (c.enter start >>= inside) = .ok () ↔ P ∧ c.Fits (n + 1) := by
  rcases c.enter_cases start with ⟨hdeep, hfits⟩ | ⟨c', henter, hfits⟩
  · exact ⟨fun hok => absurd hok ((hdeep.bind inside).ne_ok ()), fun hok => absurd hok.2 (hfits n)⟩
  · rw [henter, ok_bind, h c', hfits n]

theorem text_key_eq_ok_iff {k : KeySpelling} {key : String} :
    k.key.text = .ok key ↔ k.name = some key :=
  known_eq_ok_iff

variable [RealReader]

/-- Every number is representable. -/
def Representable (τ : Spelling) : Prop :=
  τ.All Numeral.Spelled.Representable fun _ => True

/-- Every number is representable, and every text and key names characters. -/
def Readable (τ : Spelling) : Prop :=
  τ.All Numeral.Spelled.Representable Quoted.Part.Names

theorem checkScalar_value {t : Token} {before behind : Blanks} :
    Document.checkScalar t.value = .ok () ↔ (scalar before t behind).Readable := by
  cases t with
  | null | boolean b => exact ⟨fun _ => trivial, fun _ => rfl⟩
  | number s =>
      change Document.checkScalar (.number (s.numeral.number []).bare) = .ok () ↔ s.Representable
      rw [Numeral.Spelled.Representable]
      cases s.numeral.number [] with
      | integer n => exact ⟨fun _ => nofun, fun _ => rfl⟩
      | real x => exact ⟨fun _ => nofun, fun _ => rfl⟩
      | tooLarge seen => exact ⟨nofun, fun h => absurd rfl (h seen)⟩
  | text ps =>
      change Document.checkScalar (.text (known (Quoted.Part.named ps))) = .ok () ↔
        Quoted.Part.Names ps
      rw [Quoted.Part.Names]
      cases Quoted.Part.named ps with
      | none => exact ⟨nofun, fun ⟨_, h⟩ => nomatch h⟩
      | some s => exact ⟨fun _ => ⟨s, rfl⟩, fun _ => rfl⟩

mutual

theorem check_document_iff :
    ∀ {τ : Spelling} {c : Context},
      τ.document.check c = .ok () ↔ τ.Readable ∧ c.Fits τ.document.height
  | scalar _ _ _, c => checkScalar_value.trans (and_iff_left c.fits_zero).symm
  | list .., _ => enter_check_iff fun _ => checkItems_document_iff
  | object .., _ => enter_check_iff fun _ => checkMembers_document_iff

theorem checkItems_document_iff :
    ∀ {τs : List Spelling} {c : Context},
      Document.checkItems c (itemsDocument τs) = .ok () ↔
        AllItems Numeral.Spelled.Representable Quoted.Part.Names τs ∧
          c.Fits (Document.itemsHeight (itemsDocument τs))
  | [], c => ⟨fun _ => ⟨trivial, c.fits_zero⟩, fun _ => rfl⟩
  | τ :: τs, c => by
      rw [itemsDocument, Document.itemsHeight, Context.fits_max, AllItems, Document.checkItems,
        bind_eq_ok_iff]
      constructor
      · rintro ⟨⟨⟩, hτ, hτs⟩
        obtain ⟨hread, hfits⟩ := check_document_iff.1 hτ
        obtain ⟨hreads, hfit⟩ := checkItems_document_iff.1 hτs
        exact ⟨⟨hread, hreads⟩, hfits, hfit⟩
      · rintro ⟨⟨hread, hreads⟩, hfits, hfit⟩
        exact ⟨(), check_document_iff.2 ⟨hread, hfits⟩, checkItems_document_iff.2 ⟨hreads, hfit⟩⟩

theorem checkMembers_document_iff :
    ∀ {ms : List Member} {c : Context},
      Document.checkMembers c (membersDocument ms) = .ok () ↔
        AllMembers Numeral.Spelled.Representable Quoted.Part.Names ms ∧
          c.Fits (Document.membersHeight (membersDocument ms))
  | [], c => ⟨fun _ => ⟨trivial, c.fits_zero⟩, fun _ => rfl⟩
  | (k, τ) :: ms, c => by
      rw [membersDocument, Document.membersHeight, Context.fits_max, AllMembers,
        Document.checkMembers, bind_eq_ok_iff]
      constructor
      · rintro ⟨s, hs, h⟩
        obtain ⟨⟨⟩, hτ, hms⟩ := bind_eq_ok_iff.1 h
        obtain ⟨hread, hfits⟩ := check_document_iff.1 hτ
        obtain ⟨hreads, hfit⟩ := checkMembers_document_iff.1 hms
        exact ⟨⟨⟨s, known_eq_ok_iff.1 hs⟩, hread, hreads⟩, hfits, hfit⟩
      · rintro ⟨⟨⟨s, hs⟩, hread, hreads⟩, hfits, hfit⟩
        exact ⟨s, known_eq_ok_iff.2 hs, bind_eq_ok_iff.2
          ⟨(), check_document_iff.2 ⟨hread, hfits⟩, checkMembers_document_iff.2 ⟨hreads, hfit⟩⟩⟩

end

/-! ### Parts -/

theorem itemsHeight_le_iff {τs : List Spelling} {h : ℕ} :
    Document.itemsHeight (itemsDocument τs) ≤ h ↔ ∀ τ ∈ τs, τ.height ≤ h := by
  induction τs with
  | nil => simp [itemsDocument, Document.itemsHeight]
  | cons τ τs ih =>
      rw [itemsDocument, Document.itemsHeight, Nat.max_le, ih, List.forall_mem_cons, height]

theorem membersHeight_le_iff {ms : List Member} {h : ℕ} :
    Document.membersHeight (membersDocument ms) ≤ h ↔ ∀ m ∈ ms, m.2.height ≤ h := by
  induction ms with
  | nil => simp [membersDocument, Document.membersHeight]
  | cons m ms ih =>
      rw [membersDocument, Document.membersHeight, Nat.max_le, ih, List.forall_mem_cons, height]

variable {before gap behind : Blanks} {items : List Spelling} {ms : List Member}

theorem readable_list_iff :
    (list before gap items behind).Readable ↔ ∀ τ ∈ items, τ.Readable :=
  allItems_iff

theorem readable_object_iff :
    (object before gap ms behind).Readable ↔
      (∀ m ∈ ms, Quoted.Part.Names m.1.parts) ∧ ∀ m ∈ ms, m.2.Readable :=
  allMembers_iff.trans forall₂_and

theorem fits_list_iff {c c' : Context} {start : List Char} (h : c.enter start = .ok c') :
    c.Fits (list before gap items behind).height ↔ ∀ τ ∈ items, c'.Fits τ.height := by
  refine (Context.fits_of_enter h).symm.trans ?_
  simp only [Context.Fits, itemsHeight_le_iff]
  exact ⟨fun h τ hτ hs => h hs τ hτ, fun h hs τ hτ => h τ hτ hs⟩

theorem fits_object_iff {c c' : Context} {start : List Char} (h : c.enter start = .ok c') :
    c.Fits (object before gap ms behind).height ↔ ∀ m ∈ ms, c'.Fits m.2.height := by
  refine (Context.fits_of_enter h).symm.trans ?_
  simp only [Context.Fits, membersHeight_le_iff]
  exact ⟨fun h m hm hs => h hs m hm, fun h hs m hm => h m hm hs⟩

/-! ### Members by their key -/

/-- The documents of the values that stand under a key. -/
def under (key : String) (ms : List Member) : List Document :=
  (ms.filter fun m => m.1.name = some key).map fun m => m.2.document

theorem under_membersDocument (key : String) (ms : List Member) :
    (membersDocument ms).under key = under key ms := by
  induction ms with
  | nil => rfl
  | cons m ms ih =>
      rw [membersDocument, Members.under, ih, under, under]
      by_cases hm : m.1.name = some key
      · rw [if_pos (text_key_eq_ok_iff.2 hm), List.filter_cons_of_pos (by simpa using hm)]
        rfl
      · rw [if_neg (mt text_key_eq_ok_iff.1 hm), List.filter_cons_of_neg (by simpa using hm)]

theorem without_membersDocument (key : String) (ms : List Member) :
    (membersDocument ms).without key =
      membersDocument (ms.filter fun m => m.1.name ≠ some key) := by
  induction ms with
  | nil => rfl
  | cons m ms ih =>
      rw [membersDocument, Members.without, ih]
      by_cases hm : m.1.name = some key
      · rw [if_pos (text_key_eq_ok_iff.2 hm), List.filter_cons_of_neg (by simpa using hm)]
      · rw [if_neg (mt text_key_eq_ok_iff.1 hm), List.filter_cons_of_pos (by simpa using hm)]
        rfl

theorem passed_membersDocument {ms : List Member} :
    (membersDocument ms).Passed ↔ ∀ m ∈ ms, Quoted.Part.Names m.1.parts := by
  induction ms with
  | nil => simp [membersDocument, Members.Passed]
  | cons m ms ih =>
      rw [membersDocument, Members.Passed, ih, List.forall_mem_cons,
        and_iff_right (skip_document m.2)]
      simp only [text_key_eq_ok_iff]
      rfl

end Spelling

end DeviceTwin.Json
