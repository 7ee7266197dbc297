import DeviceTwin.Text.Table
import DeviceTwin.Toml.Value

/-!
# Tables under construction

A document gives its tables piece by piece, and which pieces may come later depends on
how a table came about. A table that only lies on the way to another one (`implied`)
may still get a header of its own, one with a header (`headed`) may not get another,
and one that dotted keys made (`dotted`) takes further dotted keys only. Values are
closed: nothing can be added to an inline table or a list.

`put` adds a value under a dotted key, `within` goes down the path of a header, and
`openTable?` and `openNext?` are the two kinds of headers.
-/

namespace DeviceTwin.Toml

inductive Making where
  | implied
  | headed
  | dotted
  deriving DecidableEq, Repr

inductive Part where
  | value (v : Value)
  | table (making : Making) (entries : List (String × Part))
  | tables (items : List (List (String × Part)))

abbrev Parts := List (String × Part)

namespace Parts

def get? (parts : Parts) (key : String) : Option Part :=
  Text.lookupEntry key parts

/-- Puts a part in the place of the one under its key, or behind the others. -/
def set (key : String) (part : Part) : Parts → Parts
  | [] => [(key, part)]
  | p :: ps => if p.1 = key then (key, part) :: ps else p :: set key part ps

@[simp] theorem get?_set_self (key : String) (part : Part) (parts : Parts) :
    (set key part parts).get? key = some part := by
  induction parts with
  | nil => simp [set, get?, Text.lookupEntry_cons]
  | cons p ps ih =>
    by_cases h : p.1 = key
    · simp [set, h, get?, Text.lookupEntry_cons]
    · simpa [set, h, get?, Text.lookupEntry_cons] using ih

/-- The last one of a list changed. -/
def changeLast {α : Type} (f : α → Option α) : List α → Option (List α)
  | [] => none
  | [a] => (f a).map ([·])
  | a :: as => (changeLast f as).map (a :: ·)

/-- Adds a value under a key, given behind the keys of the tables it is in. -/
def put (value : Value) (key : String) : List String → Parts → Option Parts
  | [], parts =>
    match parts.get? key with
    | some _ => none
    | none => some (set key (.value value) parts)
  | k :: path, parts =>
    match parts.get? k with
    | none => (put value key path []).map fun sub => set k (.table .dotted sub) parts
    | some (.table making sub) =>
      if making = .headed ∨ (path = [] ∧ making ≠ .dotted) then none
      else (put value key path sub).map fun sub => set k (.table making sub) parts
    | some (.tables items) =>
      if path = [] then none
      else
        (changeLast (put value key path) items).map fun items => set k (.tables items) parts
    | some (.value _) => none

/-- Changes the table at the path of a header. The tables on the way there are made if
they are missing, and of several tables under one key the last one is meant. -/
def within (f : Parts → Option Parts) : List String → Parts → Option Parts
  | [], parts => f parts
  | k :: path, parts =>
    match parts.get? k with
    | none => (within f path []).map fun sub => set k (.table .implied sub) parts
    | some (.table making sub) =>
      (within f path sub).map fun sub => set k (.table making sub) parts
    | some (.tables items) =>
      (changeLast (within f path) items).map fun items => set k (.tables items) parts
    | some (.value _) => none

/-- Gives the table under a key its header. -/
def openTable? (key : String) (parts : Parts) : Option Parts :=
  match parts.get? key with
  | none => some (set key (.table .headed []) parts)
  | some (.table .implied sub) => some (set key (.table .headed sub) parts)
  | some _ => none

/-- Begins a further table in the list under a key. -/
def openNext? (key : String) (parts : Parts) : Option Parts :=
  match parts.get? key with
  | none => some (set key (.tables [[]]) parts)
  | some (.tables items) => some (set key (.tables (items ++ [[]])) parts)
  | some _ => none

mutual

def partValue : Part → Value
  | .value v => v
  | .table _ entries => .table (values entries)
  | .tables items => .list (tableValues items)

/-- The entries of a finished table. -/
def values : List (String × Part) → List (String × Value)
  | [] => []
  | (k, p) :: ps => (k, partValue p) :: values ps

def tableValues : List (List (String × Part)) → List Value
  | [] => []
  | t :: ts => .table (values t) :: tableValues ts

end

end Parts

end DeviceTwin.Toml
