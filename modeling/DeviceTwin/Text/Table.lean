import DeviceTwin.Text.Names

/-!
# Tables

A table is a list of keyed values in strictly rising order of the keys. The order
is part of the type, so two tables with the same content are the same table, and
`insert` keeps it: the last value put under a key stays. Looking a key up after an
insertion gives what was put there (`get?_insert_self`), and other keys keep what they
had (`get?_insert_of_ne`).

A hash table gives its entries in an order of its own. The order is a parameter (`HashOrder`),
and all that is known of it is that each entry comes once (`HashOrder.perm`); for runs on
examples, `Concrete.givenOrder` leaves the entries as they came.
-/

namespace DeviceTwin.Text

/-- Keys rise strictly. -/
def Rising {α : Type} (entries : List (String × α)) : Prop :=
  entries.Pairwise fun a b => a.1 < b.1

/-- Puts a value at its place, over one of the same key. -/
def insertEntry {α : Type} (key : String) (value : α) :
    List (String × α) → List (String × α)
  | [] => [(key, value)]
  | e :: es =>
    if key < e.1 then (key, value) :: e :: es
    else if key = e.1 then (key, value) :: es
    else e :: insertEntry key value es

theorem mem_insertEntry {α : Type} {key : String} {value : α} {entries : List (String × α)}
    {e : String × α} (h : e ∈ insertEntry key value entries) :
    e = (key, value) ∨ e ∈ entries := by
  induction entries with
  | nil => simpa [insertEntry] using h
  | cons f fs ih =>
    unfold insertEntry at h
    split at h
    · simpa using h
    · split at h
      · rcases List.mem_cons.1 h with h | h
        · exact .inl h
        · exact .inr (List.mem_cons_of_mem _ h)
      · rcases List.mem_cons.1 h with rfl | h
        · exact .inr List.mem_cons_self
        · exact (ih h).imp_right (List.mem_cons_of_mem _)

theorem lt_of_not_lt_of_ne {a b : String} (h : ¬ a < b) (h' : a ≠ b) : b < a := by
  rcases String.le_total a b with h₁ | h₁
  · exact absurd (String.le_antisymm h₁ (String.not_lt.1 h)) h'
  · exact Decidable.byContradiction fun h₂ =>
      h' (String.le_antisymm (String.not_lt.1 h₂) h₁)

theorem Rising.insertEntry {α : Type} {entries : List (String × α)} (key : String) (value : α)
    (h : Rising entries) : Rising (insertEntry key value entries) := by
  induction entries with
  | nil => simp [Rising, Text.insertEntry]
  | cons e es ih =>
    have hes : Rising es := (List.pairwise_cons.1 h).2
    unfold Text.insertEntry
    split
    · rename_i hlt
      refine List.pairwise_cons.2 ⟨fun f hf => ?_, h⟩
      rcases List.mem_cons.1 hf with rfl | hf
      · exact hlt
      · exact String.lt_trans hlt ((List.pairwise_cons.1 h).1 f hf)
    · split
      · rename_i heq
        subst heq
        exact List.pairwise_cons.2 ⟨fun f hf => (List.pairwise_cons.1 h).1 f hf, hes⟩
      · rename_i hlt hne
        refine List.pairwise_cons.2 ⟨fun f hf => ?_, ih hes⟩
        rcases mem_insertEntry hf with rfl | hf
        · exact lt_of_not_lt_of_ne hlt hne
        · exact (List.pairwise_cons.1 h).1 f hf

/-- The value under a key, the first one if there are several. -/
def lookupEntry {α : Type} (key : String) (entries : List (String × α)) : Option α :=
  (entries.find? fun e => e.1 == key).map (·.2)

@[simp] theorem lookupEntry_nil {α : Type} (key : String) :
    lookupEntry key ([] : List (String × α)) = none := rfl

theorem lookupEntry_cons {α : Type} (key : String) (e : String × α) (es : List (String × α)) :
    lookupEntry key (e :: es) = if e.1 = key then some e.2 else lookupEntry key es := by
  by_cases h : e.1 = key <;> simp [lookupEntry, h]

@[simp] theorem lookupEntry_insertEntry_self {α : Type} (key : String) (value : α)
    (entries : List (String × α)) :
    lookupEntry key (insertEntry key value entries) = some value := by
  induction entries with
  | nil => simp [insertEntry, lookupEntry_cons]
  | cons e es ih =>
    unfold insertEntry
    split
    · simp [lookupEntry_cons]
    · split
      · simp [lookupEntry_cons]
      · rename_i h
        rw [lookupEntry_cons, if_neg (Ne.symm h), ih]

theorem lookupEntry_insertEntry_of_ne {α : Type} {key other : String} (h : other ≠ key)
    (value : α) (entries : List (String × α)) :
    lookupEntry other (insertEntry key value entries) = lookupEntry other entries := by
  induction entries with
  | nil => simp [insertEntry, lookupEntry_cons, Ne.symm h]
  | cons e es ih =>
    unfold insertEntry
    split
    · rw [lookupEntry_cons, if_neg (Ne.symm h)]
    · split
      · rename_i he
        subst he
        rw [lookupEntry_cons, lookupEntry_cons, if_neg (Ne.symm h), if_neg (Ne.symm h)]
      · rw [lookupEntry_cons, lookupEntry_cons, ih]

structure Table (α : Type) where
  entries : List (String × α)
  rising : Rising entries
  deriving DecidableEq

namespace Table

variable {α : Type}

def empty : Table α := ⟨[], List.Pairwise.nil⟩

instance : Inhabited (Table α) := ⟨empty⟩

def insert (key : String) (value : α) (t : Table α) : Table α :=
  ⟨insertEntry key value t.entries, t.rising.insertEntry key value⟩

def isEmpty (t : Table α) : Bool := t.entries.isEmpty

/-- The last of several values under one key stays. -/
def ofList (entries : List (String × α)) : Table α :=
  entries.foldl (fun t e => t.insert e.1 e.2) empty

def get? (key : String) (t : Table α) : Option α :=
  lookupEntry key t.entries

@[simp] theorem get?_insert_self (key : String) (value : α) (t : Table α) :
    (t.insert key value).get? key = some value :=
  lookupEntry_insertEntry_self key value t.entries

theorem get?_insert_of_ne {key other : String} (h : other ≠ key) (value : α) (t : Table α) :
    (t.insert key value).get? other = t.get? other :=
  lookupEntry_insertEntry_of_ne h value t.entries

end Table

/-! ### Hash tables -/

/-- The order in which a hash table gives its entries. It depends on the table, which is told
by an address, and on what the table was filled with, and may be another one in each run. Each
entry comes once. -/
class HashOrder where
  order {α : Type} (address : List String) (entries : List (String × α)) : List (String × α)
  perm {α : Type} (address : List String) (entries : List (String × α)) :
    (order address entries).Perm entries

/-- The names in a hash set, in its order. -/
def hashedNames [HashOrder] (address names : List String) : List String :=
  (HashOrder.order address ((distinct names).map fun n => (n, ()))).map Prod.fst

end DeviceTwin.Text

namespace DeviceTwin.Concrete

/-- Hash tables give their entries in the order in which they were filled. -/
scoped instance givenOrder : Text.HashOrder :=
  ⟨fun _ entries => entries, fun _ entries => List.Perm.refl entries⟩

end DeviceTwin.Concrete
