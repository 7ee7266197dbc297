import DeviceTwin.Json.Value
import DeviceTwin.Text.Lower
import DeviceTwin.Text.Table
import DeviceTwin.Toml.Value

/-!
# Layers of settings

Settings come from several sources, one laid over the other. What they say is gathered
in one tree of nodes, and a node knows the source that it comes from. `Node.put` lays a
value over the tree: tables are merged key by key, and every other value takes the place
of what was there. Keys are kept in small letters. The tables of a source are hash tables
(`hashed`), so of two keys that differ in capitals either may be laid over the other.
-/

namespace DeviceTwin.Settings

open DeviceTwin.Text DeviceTwin.Number

inductive Scalar where
  | nothing
  | flag (b : Bool)
  | integer (n : Int)
  | real (x : Extended)
  | text (s : String)
  deriving DecidableEq, Repr

/-- A value with its origin; a table that was put together has none. -/
inductive Node where
  | scalar (origin : Option String) (value : Scalar)
  | list (origin : Option String) (items : List Node)
  | table (origin : Option String) (entries : List (String × Node))

namespace Node

def nothing : Node := scalar none .nothing

def empty : Node := table none []

instance : Inhabited Node := ⟨empty⟩

def origin : Node → Option String
  | scalar origin _ => origin
  | list origin _ => origin
  | table origin _ => origin

/-- The entries of a table; nothing else has any. -/
def entries : Node → List (String × Node)
  | table _ entries => entries
  | _ => []

def items : Node → List Node
  | list _ items => items
  | _ => []

def get? (n : Node) (key : String) : Option Node :=
  lookupEntry key n.entries

/-- A table with an entry changed. What is no table becomes one. -/
def setEntry (n : Node) (key : String) (value : Node) : Node :=
  match n with
  | table origin entries => table origin (insertEntry key value entries)
  | _ => table none [(key, value)]

@[simp] theorem get?_setEntry_self (n : Node) (key : String) (value : Node) :
    (n.setEntry key value).get? key = some value := by
  cases n <;> simp [setEntry, get?, entries, lookupEntry_cons]

theorem get?_setEntry_of_ne {key other : String} (h : other ≠ key) (n value : Node) :
    (n.setEntry key value).get? other = n.get? other := by
  cases n <;>
    simp [setEntry, get?, entries, lookupEntry_cons, Ne.symm h,
      lookupEntry_insertEntry_of_ne h]

/-- The place of an item in a list of a length, counted from its end if it is negative;
nothing, if the list has no such place. -/
def placeIn? (length : Nat) (i : Int) : Option Nat :=
  let i := if i < 0 then i + length else i
  if 0 ≤ i ∧ i < length then some i.toNat else none

/-- The item at a place, counted from the end if it is negative. -/
def item? (n : Node) (i : Int) : Option Node :=
  (placeIn? n.items.length i).bind fun i => n.items[i]?

/-- A list with an item changed. A list that is too short is filled up to the place,
behind its end or, for a negative one, before its beginning. -/
def withItem (i : Int) (value : Node) (items : List Node) : List Node :=
  match placeIn? items.length i with
  | some i => items.set i value
  | none =>
    if i < 0 then value :: List.replicate (i.natAbs - items.length - 1) nothing ++ items
    else items ++ List.replicate (i.natAbs - items.length) nothing ++ [value]

/-- A node with an item changed. What is no list becomes one. -/
def setItem (n : Node) (i : Int) (value : Node) : Node :=
  match n with
  | list origin items => list origin (withItem i value items)
  | _ => list none (withItem i value [])

mutual

/-- Lays a value over what stands under a key. -/
def put (key : String) (root : Node) : Node → Node
  | table _ incoming =>
    root.setEntry (lowered key) (putAll ((root.get? (lowered key)).getD empty) incoming)
  | scalar origin value => root.setEntry (lowered key) (scalar origin value)
  | list origin items => root.setEntry (lowered key) (list origin items)

/-- Lays the entries of a table over a node. -/
def putAll (root : Node) : List (String × Node) → Node
  | [] => root
  | (key, value) :: more => putAll (put key root value) more

end

@[simp] theorem putAll_nil (root : Node) : putAll root [] = root := rfl

@[simp] theorem putAll_cons (root : Node) (key : String) (value : Node)
    (more : List (String × Node)) :
    putAll root ((key, value) :: more) = putAll (put key root value) more := rfl

/-- A table is laid over what was there. -/
theorem get?_put_table (key : String) (root : Node) (origin : Option String)
    (incoming : List (String × Node)) :
    (put key root (table origin incoming)).get? (lowered key) =
      some (putAll ((root.get? (lowered key)).getD empty) incoming) := by
  simp [put]

/-- What stands under other keys stays. -/
theorem get?_put_of_ne {key other : String} (h : other ≠ lowered key) (root value : Node) :
    (put key root value).get? other = root.get? other := by
  cases value <;> simp [put, get?_setEntry_of_ne h]

end Node

/-- A step of the way to a value: the key of a table or the place in a list, counted
from the end of the list if it is negative. -/
inductive Step where
  | key (name : String)
  | place (i : Int)
  deriving DecidableEq, Repr

namespace Node

/-- Lays a value over what stands at the end of a way. What is missing on the way is
made, and what is of the wrong kind is replaced. -/
def putAt (value : Node) : List Step → Node → Node
  | [], _ => value
  | [.key k], root => put k root value
  | .key k :: s :: way, root =>
    root.setEntry (lowered k)
      (putAt value (s :: way) ((root.get? (lowered k)).getD nothing))
  | .place i :: way, root =>
    root.setItem i (putAt value way ((root.item? i).getD nothing))

end Node

/-- A character of an identifier. -/
def isIdentifier (c : Char) : Bool :=
  isLetter c || isDigit c || c = ' ' || c = '_' || c = '-'

/-- A place and what stands behind its bracket. Blanks may stand around it, and it has
to be a number of 64 bits. -/
def placeAfter? (s : List Char) : Option (Int × List Char) :=
  let s := skipSpaces s
  let (negative, s) :=
    match s with
    | '-' :: s => (true, s)
    | _ => (false, s)
  let ds := s.takeWhile isDigit
  let size : Int := decimalValue ds
  let i := if negative then -size else size
  match skipSpaces (s.dropWhile isDigit) with
  | ']' :: s => if !ds.isEmpty && decide (IsSigned64 i) then some (i, s) else none
  | _ => none
where
  skipSpaces : List Char → List Char := List.dropWhile fun c => c = ' ' || c = '\t'

/-- The rest of a way: keys behind points and places in brackets. The first argument
bounds the number of steps. -/
def stepsAfter? : Nat → List Char → Option (List Step)
  | _, [] => some []
  | 0, _ => none
  | n + 1, '.' :: s =>
    let k := s.takeWhile isIdentifier
    if k.isEmpty then none
    else
      (stepsAfter? n (s.dropWhile isIdentifier)).map (.key (String.ofList k) :: ·)
  | n + 1, '[' :: s =>
    (placeAfter? s).bind fun (i, s) => (stepsAfter? n s).map (.place i :: ·)
  | _, _ => none

/-- The way that a text describes, as in `loader.extension`. A text that describes none
is a key as it is. -/
def stepsOf (key : String) : List Step :=
  let s := key.toList
  let k := s.takeWhile isIdentifier
  let way :=
    if k.isEmpty then none
    else (stepsAfter? s.length (s.dropWhile isIdentifier)).map (.key (String.ofList k) :: ·)
  way.getD [.key key]

namespace Node

section Hashed

variable [HashOrder]

mutual

/-- A node whose tables are hash tables. The address of a table is the way to it, backwards,
from the source. Tables in lists are not gone through, and are left as they are. -/
def hashed (address : List String) : Node → Node
  | scalar origin value => scalar origin value
  | list origin items => list origin items
  | table origin entries =>
    table origin (HashOrder.order address (hashedEntries address entries))

def hashedEntries (address : List String) : List (String × Node) → List (String × Node)
  | [] => []
  | (key, n) :: entries => (key, hashed (key :: address) n) :: hashedEntries address entries

end

/-- The entries of a source as they come out of a hash table. -/
def hashedSource (origin : String) (entries : List (String × Node)) : List (String × Node) :=
  HashOrder.order [origin] (hashedEntries [origin] entries)

end Hashed

/-- Lays the entries of a source over a tree. -/
def putSource (root : Node) (entries : List (String × Node)) : Node :=
  entries.foldl (fun root e => putAt e.2 (stepsOf e.1) root) root

mutual

def ofToml (origin : String) : Toml.Value → Node
  | .flag b => scalar origin (.flag b)
  | .integer n => scalar origin (.integer n)
  | .real x => scalar origin (.real x)
  | .text s => scalar origin (.text s)
  | .moment m => scalar origin (.text (String.ofList m.text))
  | .list items => list origin (ofTomlItems origin items)
  | .table entries => table origin (ofTomlEntries origin entries)

def ofTomlItems (origin : String) : List Toml.Value → List Node
  | [] => []
  | v :: vs => ofToml origin v :: ofTomlItems origin vs

def ofTomlEntries (origin : String) : List (String × Toml.Value) → List (String × Node)
  | [] => []
  | (k, v) :: es => (k, ofToml origin v) :: ofTomlEntries origin es

end

/-- A number of a JSON document: an integer, if it fits in 64 bits with a sign. -/
def ofInteger (n : Int) : Scalar :=
  if IsSigned64 n then .integer n
  else .real (Extended.ofDecimal (n < 0) n.natAbs 0)

mutual

/-- A document of JSON. Of two members with one name the last one stays. -/
def ofJson (origin : String) : Json → Node
  | .null => scalar origin .nothing
  | .boolean b => scalar origin (.flag b)
  | .integer n => scalar origin (ofInteger n)
  | .real x => scalar origin (.real (.finite x))
  | .text s => scalar origin (.text s)
  | .list items => list origin (ofJsonItems origin items)
  | .object entries => table origin (Table.ofList (ofJsonEntries origin entries)).entries

def ofJsonItems (origin : String) : List Json → List Node
  | [] => []
  | v :: vs => ofJson origin v :: ofJsonItems origin vs

def ofJsonEntries (origin : String) : List (String × Json) → List (String × Node)
  | [] => []
  | (k, v) :: es => (k, ofJson origin v) :: ofJsonEntries origin es

end

end Node

end DeviceTwin.Settings
