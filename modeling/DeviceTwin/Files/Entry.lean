import DeviceTwin.Text.Table

/-!
# Files and directories

An entry of a file system is a file with its content or a directory with named
entries. An address is the list of names on the way down to an entry.

`Entry.files` walks an entry from the top: siblings come in the order of their
names, and what a directory holds comes in its place among them. A program may leave the
walk to a library, of which two laws are then expected: each file is listed once with its
address (`Proper.mem_files_iff`), and the addresses rise (`Proper.files_pairwise`). A file
that is put at an address is found there (`find?_put_self`).

Files hold octets, and a text stands in them in UTF-8 (`strict`). Octets that are not
well formed are no text, be it in a description or in settings. A text that was written
is read back (`strict_toUTF8`).
-/

namespace DeviceTwin.Files

/-- The text that octets spell, if they are well formed. -/
def strict (content : ByteArray) : Option String :=
  String.fromUTF8? content

theorem strict_toUTF8 (s : String) : strict s.toUTF8 = some s := by
  have h : s.toUTF8.IsValidUTF8 := s.isValidUTF8
  simp only [strict, String.fromUTF8?, h, dif_pos]
  rfl

inductive Entry where
  | file (content : ByteArray)
  | directory (entries : List (String × Entry))

abbrev Address := List String

namespace Entry

instance : Inhabited Entry := ⟨directory []⟩

def isDirectory : Entry → Bool
  | file _ => false
  | directory _ => true

def content? : Entry → Option ByteArray
  | file content => some content
  | directory _ => none

def entries : Entry → List (String × Entry)
  | file _ => []
  | directory entries => entries

def child? (e : Entry) (name : String) : Option Entry :=
  Text.lookupEntry name e.entries

/-- The entry at an address. -/
def find? : Entry → Address → Option Entry
  | e, [] => some e
  | e, name :: address =>
    match e.child? name with
    | some e => e.find? address
    | none => none

@[simp] theorem find?_nil (e : Entry) : e.find? [] = some e := by
  cases e <;> rfl

theorem find?_cons (e : Entry) (name : String) (address : Address) :
    e.find? (name :: address) = (e.child? name).bind (·.find? address) := by
  rw [find?]
  cases e.child? name <;> rfl

/-- Puts a file at an address, over the one that is there. -/
def put (content : ByteArray) : Address → Entry → Entry
  | [], _ => file content
  | name :: address, e =>
    directory
      (Text.insertEntry name (put content address ((e.child? name).getD (directory [])))
        e.entries)

theorem child?_put_self (content : ByteArray) (name : String) (address : Address) (e : Entry) :
    (put content (name :: address) e).child? name =
      some (put content address ((e.child? name).getD (directory []))) := by
  simp [put, child?, entries]

theorem child?_put_of_ne {name other : String} (h : other ≠ name) (content : ByteArray)
    (address : Address) (e : Entry) :
    (put content (name :: address) e).child? other = e.child? other := by
  simpa only [put, child?, entries] using Text.lookupEntry_insertEntry_of_ne h _ e.entries

/-- What was put at an address is there. -/
@[simp] theorem find?_put_self (content : ByteArray) (address : Address) (e : Entry) :
    (put content address e).find? address = some (file content) := by
  induction address generalizing e with
  | nil => simp [put]
  | cons name address ih => rw [find?_cons, child?_put_self, Option.bind_some, ih]

/-- Adds an empty directory at an address, unless there is one. -/
def addDirectory : Address → Entry → Entry
  | [], file _ => directory []
  | [], directory entries => directory entries
  | name :: address, e =>
    directory
      (Text.insertEntry name (addDirectory address ((e.child? name).getD (directory [])))
        e.entries)

/-- Lists in the order of the names that they are found under. -/
def inOrder {α : Type} (found : List (String × List α)) : List α :=
  (found.mergeSort fun a b => decide (a.1 ≤ b.1)).flatMap (·.2)

mutual

/-- The files of an entry with their addresses, in the order of a walk. -/
def files : Entry → List (Address × ByteArray)
  | file content => [([], content)]
  | directory entries => inOrder (filesBelow entries)

/-- The files below each of several entries, by the names of these entries. -/
def filesBelow : List (String × Entry) → List (String × List (Address × ByteArray))
  | [] => []
  | (name, e) :: more =>
    (name, (files e).map fun f => (name :: f.1, f.2)) :: filesBelow more

end

end Entry

end DeviceTwin.Files
