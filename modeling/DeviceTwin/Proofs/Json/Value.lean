import DeviceTwin.Json.Value
import Mathlib.Data.List.Basic

/-!
# The value in a document

`Document.Holds d j` says that the document `d` is complete and spells the value `j`, the
members of its objects in the order of the text. It is the one thing that readers need to
know of a text that was written: a document that holds a value is as high as that value,
and one that holds a value in canonical form is put into that form unchanged.
-/

namespace DeviceTwin

open DeviceTwin.Text DeviceTwin.Number

namespace Json

mutual

/-- The number of brackets that are open at once in the text of a value. -/
def height : Json → Nat
  | list items => itemsHeight items + 1
  | object entries => entriesHeight entries + 1
  | _ => 0

def itemsHeight : List Json → Nat
  | [] => 0
  | j :: js => max (height j) (itemsHeight js)

def entriesHeight : List (String × Json) → Nat
  | [] => 0
  | (_, j) :: es => max (height j) (entriesHeight es)

end

mutual

/-- Integers fit in 64 bits. -/
def Bounded : Json → Prop
  | integer n => IsWide64 n
  | list items => BoundedItems items
  | object entries => BoundedEntries entries
  | _ => True

def BoundedItems : List Json → Prop
  | [] => True
  | j :: js => Bounded j ∧ BoundedItems js

def BoundedEntries : List (String × Json) → Prop
  | [] => True
  | (_, j) :: es => Bounded j ∧ BoundedEntries es

end

mutual

theorem Canonical.bounded : ∀ {j : Json}, j.Canonical → j.Bounded
  | null, _ | boolean _, _ | real _, _ | text _, _ => trivial
  | integer _, h => h
  | list _, h => CanonicalItems.bounded h
  | object _, h => CanonicalEntries.bounded h.2

theorem CanonicalItems.bounded : ∀ {js : List Json}, CanonicalItems js → BoundedItems js
  | [], _ => trivial
  | _ :: _, h => ⟨h.1.bounded, CanonicalItems.bounded h.2⟩

theorem CanonicalEntries.bounded :
    ∀ {es : List (String × Json)}, CanonicalEntries es → BoundedEntries es
  | [], _ => trivial
  | (_, _) :: _, h => ⟨h.1.bounded, CanonicalEntries.bounded h.2⟩

end

theorem boundedItems_iff {js : List Json} : BoundedItems js ↔ ∀ j ∈ js, j.Bounded := by
  induction js with
  | nil => simp [BoundedItems]
  | cons j js ih => rw [BoundedItems, ih, List.forall_mem_cons]

theorem boundedEntries_iff {es : List (String × Json)} :
    BoundedEntries es ↔ ∀ e ∈ es, e.2.Bounded := by
  induction es with
  | nil => simp [BoundedEntries]
  | cons e es ih => rw [BoundedEntries, ih, List.forall_mem_cons]

mutual

/-- The reals in a value, from left to right. -/
def reals : Json → List Double
  | real x => [x]
  | list items => itemsReals items
  | object entries => entriesReals entries
  | _ => []

def itemsReals : List Json → List Double
  | [] => []
  | j :: js => reals j ++ itemsReals js

def entriesReals : List (String × Json) → List Double
  | [] => []
  | (_, j) :: es => reals j ++ entriesReals es

end

section Wide

variable [RealReader]

mutual

/-- Integers fit in 64 bits, and reals come back from their texts. -/
def Wide : Json → Prop
  | integer n => IsWide64 n
  | real x => RealReader.Keeps x
  | list items => WideItems items
  | object entries => WideEntries entries
  | _ => True

def WideItems : List Json → Prop
  | [] => True
  | j :: js => Wide j ∧ WideItems js

def WideEntries : List (String × Json) → Prop
  | [] => True
  | (_, j) :: es => Wide j ∧ WideEntries es

end

mutual

theorem wide_iff : ∀ {j : Json}, j.Wide ↔ j.Bounded ∧ ∀ x ∈ j.reals, RealReader.Keeps x
  | null | boolean _ | text _ | integer _ => by simp [Wide, Bounded, reals]
  | real x => by simp [Wide, Bounded, reals]
  | list items => wideItems_iff_bounded
  | object entries => wideEntries_iff_bounded

theorem wideItems_iff_bounded :
    ∀ {js : List Json}, WideItems js ↔
      BoundedItems js ∧ ∀ x ∈ itemsReals js, RealReader.Keeps x
  | [] => by simp [WideItems, BoundedItems, itemsReals]
  | j :: js => by
      simp only [WideItems, BoundedItems, itemsReals, List.forall_mem_append, wide_iff,
        wideItems_iff_bounded]
      exact and_and_and_comm

theorem wideEntries_iff_bounded :
    ∀ {es : List (String × Json)}, WideEntries es ↔
      BoundedEntries es ∧ ∀ x ∈ entriesReals es, RealReader.Keeps x
  | [] => by simp [WideEntries, BoundedEntries, entriesReals]
  | (_, j) :: es => by
      simp only [WideEntries, BoundedEntries, entriesReals, List.forall_mem_append, wide_iff,
        wideEntries_iff_bounded]
      exact and_and_and_comm

end

theorem wideItems_iff {js : List Json} : WideItems js ↔ ∀ j ∈ js, j.Wide := by
  induction js with
  | nil => simp [WideItems]
  | cons j js ih => rw [WideItems, ih, List.forall_mem_cons]

theorem wideEntries_iff {es : List (String × Json)} : WideEntries es ↔ ∀ e ∈ es, e.2.Wide := by
  induction es with
  | nil => simp [WideEntries]
  | cons e es ih => rw [WideEntries, ih, List.forall_mem_cons]

end Wide

theorem height_le_itemsHeight {j : Json} {js : List Json} (h : j ∈ js) :
    j.height ≤ itemsHeight js := by
  induction js with
  | nil => exact absurd h List.not_mem_nil
  | cons i js ih =>
      rw [itemsHeight]
      rcases List.mem_cons.1 h with rfl | h
      · exact Nat.le_max_left _ _
      · exact Nat.le_trans (ih h) (Nat.le_max_right _ _)

theorem height_le_entriesHeight {e : String × Json} {es : List (String × Json)} (h : e ∈ es) :
    e.2.height ≤ entriesHeight es := by
  induction es with
  | nil => exact absurd h List.not_mem_nil
  | cons f es ih =>
      rw [entriesHeight]
      rcases List.mem_cons.1 h with rfl | h
      · exact Nat.le_max_left _ _
      · exact Nat.le_trans (ih h) (Nat.le_max_right _ _)

end Json

namespace Json

mutual

/-- The document is complete and spells the value. -/
inductive Document.Holds : Document → Json → Prop
  | null (start stop : List Char) : Document.Holds (.scalar start stop .null) .null
  | boolean (start stop : List Char) (b : Bool) :
      Document.Holds (.scalar start stop (.boolean b)) (.boolean b)
  | integer (start stop : List Char) (n : WideInt) :
      Document.Holds (.scalar start stop (.number (.integer n))) (.integer n.val)
  | real (start stop : List Char) (x : Double) :
      Document.Holds (.scalar start stop (.number (.real x))) (.real x)
  | text (start stop : List Char) (s : String) :
      Document.Holds (.scalar start stop (.text (.ok s))) (.text s)
  | list (start : List Char) {items : Items} {js : List Json} (h : Items.Hold items js) :
      Document.Holds (.list start items) (.list js)
  | object (start : List Char) {members : Members} {es : List (String × Json)}
      (h : Members.Hold members es) : Document.Holds (.object start members) (.object es)

inductive Items.Hold : Items → List Json → Prop
  | nil (stop : List Char) : Items.Hold (.close stop) []
  | cons {d : Document} {j : Json} {more : Items} {js : List Json} (h : Document.Holds d j)
      (hmore : Items.Hold more js) : Items.Hold (.item d more) (j :: js)

inductive Members.Hold : Members → List (String × Json) → Prop
  | nil (stop : List Char) : Members.Hold (.close stop) []
  | cons {k : String} {stop : List Char} {d : Document} {j : Json} {more : Members}
      {es : List (String × Json)} (h : Document.Holds d j) (hmore : Members.Hold more es) :
      Members.Hold (.member ⟨.ok k, stop⟩ d more) ((k, j) :: es)

end

/-! ### Heights agree -/

mutual

theorem Document.Holds.height_eq : ∀ {d : Document} {j : Json}, d.Holds j → d.height = j.height
  | _, _, .null _ _ | _, _, .boolean _ _ _ | _, _, .integer _ _ _ | _, _, .real _ _ _
  | _, _, .text _ _ _ => rfl
  | _, _, .list _ h => congrArg (· + 1) (Items.Hold.height_eq h)
  | _, _, .object _ h => congrArg (· + 1) (Members.Hold.height_eq h)

theorem Items.Hold.height_eq :
    ∀ {items : Items} {js : List Json}, items.Hold js →
      Document.itemsHeight items = Json.itemsHeight js
  | _, _, .nil _ => rfl
  | _, _, .cons h hmore => congrArg₂ max h.height_eq (Items.Hold.height_eq hmore)

theorem Members.Hold.height_eq :
    ∀ {members : Members} {es : List (String × Json)}, members.Hold es →
      Document.membersHeight members = Json.entriesHeight es
  | _, _, .nil _ => rfl
  | _, _, .cons h hmore => congrArg₂ max h.height_eq (Members.Hold.height_eq hmore)

end

/-! ### Canonical values -/

/-- An entry whose key is above all others goes to the end. -/
theorem insertEntry_of_forall_lt {α : Type} {key : String} {entries : List (String × α)}
    (value : α) (h : ∀ e ∈ entries, e.1 < key) :
    insertEntry key value entries = entries ++ [(key, value)] := by
  induction entries with
  | nil => rfl
  | cons e es ih =>
      obtain ⟨he, hes⟩ := List.forall_mem_cons.1 h
      have hne : key ≠ e.1 := by
        intro heq
        rw [heq] at he
        exact String.lt_irrefl _ he
      rw [insertEntry, if_neg (String.lt_asymm he), if_neg hne, ih hes, List.cons_append]

mutual

theorem Document.Holds.ofDocument_eq :
    ∀ {d : Document} {j : Json}, d.Holds j → j.Canonical → Json.ofDocument d = j
  | _, _, .null _ _, _ | _, _, .boolean _ _ _, _ | _, _, .integer _ _ _, _
  | _, _, .real _ _ _, _ | _, _, .text _ _ _, _ => by simp only [Json.ofDocument]
  | _, _, .list _ h, hj => by
      rw [Json.ofDocument, Items.Hold.ofItems_eq h hj]
  | _, _, .object _ h, hj => by
      have hes := Members.Hold.ofMembers_eq h [] hj.1 hj.2
      rw [Json.ofDocument, hes, List.nil_append]

theorem Items.Hold.ofItems_eq :
    ∀ {items : Items} {js : List Json}, items.Hold js → Json.CanonicalItems js →
      Json.ofItems items = js
  | _, _, .nil _, _ => by simp only [Json.ofItems]
  | _, _, .cons h hmore, hjs => by
      rw [Json.ofItems, h.ofDocument_eq hjs.1, Items.Hold.ofItems_eq hmore hjs.2]

/-- Members in rising order come behind the entries that are there already. -/
theorem Members.Hold.ofMembers_eq :
    ∀ {members : Members} {es : List (String × Json)}, members.Hold es →
      ∀ entries : List (String × Json), Rising (entries ++ es) → Json.CanonicalEntries es →
        Json.ofMembers entries members = entries ++ es
  | _, _, .nil _, entries, _, _ => by simp only [Json.ofMembers, List.append_nil]
  | .member ⟨.ok k, _⟩ _ _, (_, j) :: es, .cons h hmore, entries, hrising, hes => by
      have hbelow : ∀ e ∈ entries, e.1 < k :=
        fun e he => (List.pairwise_append.1 hrising).2.2 e he (k, j) List.mem_cons_self
      have hnext : entries ++ (k, j) :: es = (entries ++ [(k, j)]) ++ es := by
        rw [List.append_assoc, List.singleton_append]
      rw [hnext] at hrising ⊢
      rw [Json.ofMembers, h.ofDocument_eq hes.1, insertEntry_of_forall_lt j hbelow,
        Members.Hold.ofMembers_eq hmore _ hrising hes.2]

end

end Json

end DeviceTwin
