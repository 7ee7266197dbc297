import DeviceTwin.Json.Choice

/-!
# Records

A record is described once, by its fields in order, and the description is read
in three ways. An object gives the fields by key: unknown keys are passed over,
a known key may come once, and a field left out takes what its description says
or is missing. A list gives the fields by position, and fields may be left out
at its end. Written, a record is an object with its fields in order, without
those that are left out by default.

The fields of one record have different types. `Slots fs` is the product of the
types of `fs`, and `Draft fs` holds for each of them a value or none yet; the
laws of reading and writing are inductions over `fs`. A `Record` ties the
product to the structure that it stands for.
-/

namespace DeviceTwin.Json

open DeviceTwin.Number (count31 count32 count64)

/-- How values of a type are read from a document and written as JSON. -/
structure Codec (α : Type) where
  read : Reader α
  write : α → Json

structure Field where
  key : String
  Value : Type
  absent : Option Value
  read : Reader Value
  write : Value → Option Json

namespace Field

variable {α : Type}

/-- A field that has to be given. -/
abbrev required (key : String) (codec : Codec α) : Field :=
  ⟨key, α, none, codec.read, fun a => some (codec.write a)⟩

/-- A field that may be null or left out, and is left out when it holds nothing. -/
abbrev optional (key : String) (codec : Codec α) : Field :=
  ⟨key, Option α, some none, codec.read.optional, fun a => a.map codec.write⟩

/-- A list that is left out when it is empty. -/
abbrev list (key : String) (codec : Codec α) : Field :=
  ⟨key, List α, some [], codec.read.list,
    fun as => if as.isEmpty then none else some (.list (as.map codec.write))⟩

/-- A field that may be left out and is always written. -/
abbrev withDefault (key : String) (default : α) (codec : Codec α) : Field :=
  ⟨key, α, some default, codec.read, fun a => some (codec.write a)⟩

end Field

@[reducible] def Slots : List Field → Type
  | [] => Unit
  | f :: fs => f.Value × Slots fs

@[reducible] def Draft : List Field → Type
  | [] => Unit
  | f :: fs => Option f.Value × Draft fs

namespace Draft

def empty : (fs : List Field) → Draft fs
  | [] => ()
  | _ :: fs => (none, empty fs)

/-- Takes in one member: the value of a field that has none yet, or a value to
pass over. -/
def accept (c : Context) (key : String) (stop : List Char) (d : Document) :
    (fs : List Field) → Draft fs → Except Fault (Draft fs)
  | [], () => do
    d.skip
    return ()
  | f :: fs, (slot, slots) =>
    if key = f.key then
      match slot with
      | some _ => .error (.twice key stop)
      | none => do
        let v ← settled d.behindMember (f.read c d)
        return (some v, slots)
    else do
      let slots ← accept c key stop d fs slots
      return (slot, slots)

/-- A key without its value: known twice, or cut off before the colon. -/
def acceptKey (key : String) (stop : List Char) :
    (fs : List Field) → Draft fs → Except Fault Unit
  | [], () => .ok ()
  | f :: fs, (slot, slots) =>
    if key = f.key ∧ slot.isSome then .error (.twice key stop)
    else acceptKey key stop fs slots

def acceptAll (c : Context) (fs : List Field) :
    Members → Draft fs → Except Fault (Draft fs × List Char)
  | .close stop, draft => .ok (draft, stop)
  | .member key d more, draft => do
    let k ← key.text
    let draft ← accept c k key.stop d fs draft
    acceptAll c fs more draft
  | .noColon key rest, draft => do
    acceptKey (← key.text) key.stop fs draft
    .error (Members.noColon key rest).fault
  | members, _ => .error members.fault

/-- Fills the fields left out; the first that cannot be filled is missing. -/
def finish (stop : List Char) : (fs : List Field) → Draft fs → Except Fault (Slots fs)
  | [], () => .ok ()
  | f :: fs, (slot, slots) =>
    match slot.orElse fun _ => f.absent with
    | none => .error (.here (.missingField f.key) stop)
    | some v => do
      let vs ← finish stop fs slots
      return (v, vs)

end Draft

namespace Slots

/-- A length fault; `count` is the number of fields that a full list has. -/
def tooShort (title : String) (count length : Nat) (stop : List Char) : Fault :=
  .here
    (.wrongLength length
      (title ++ " with " ++ toString count ++ (if count = 1 then " element" else " elements")))
    stop

/-- Takes the fields from the front of a list. -/
def ofItems (c : Context) (title : String) (count : Nat) (taken : Nat) :
    (fs : List Field) → Items → Except Fault (Slots fs × Items)
  | [], items => .ok ((), items)
  | f :: fs, .item d more => do
    let v ← settled d.behindItem (f.read c d)
    let (vs, items) ← ofItems c title count (taken + 1) fs more
    return ((v, vs), items)
  | f :: fs, .close stop =>
    match f.absent with
    | none => .error (tooShort title count taken stop)
    | some v => do
      let (vs, items) ← ofItems c title count taken fs (.close stop)
      return ((v, vs), items)
  | _ :: _, items => .error items.fault

/-- The number of items of a list. -/
def lengthOf : Items → Nat
  | .item _ more => lengthOf more + 1
  | _ => 0

/-- The end of a list all of whose fields were taken. -/
def finishItems (c : Context) (count : Nat) : Items → Except Fault Unit
  | .close _ => .ok ()
  | .item d more =>
    let total := count + lengthOf (.item d more)
    match c.source with
    | .text => .error (.behindNext .trailingCharacters d.start)
    | .stored => .error (.here (.wrongLength total "fewer elements in array") [])
    | .buffered =>
      .error
        (.here
          (.wrongLength total
            (toString count ++ (if count = 1 then " element" else " elements") ++ " in sequence"))
          [])
  | .trailingComma rest => .error (.behindNext .trailingComma rest)
  | .stray [] => .error (.here .endInList [])
  | .stray rest => .error (.behindNext .trailingCharacters rest)
  | .endAfterComma => .error (.here .trailingCharacters [])
  | .unfinished => .error (.here .trailingCharacters [])

/-- The members of a written record. -/
def toMembers : (fs : List Field) → Slots fs → List (String × Json)
  | [], () => []
  | f :: fs, (v, vs) =>
    match f.write v with
    | none => toMembers fs vs
    | some j => (f.key, j) :: toMembers fs vs

end Slots

/-- The fields of a structure, with the way from the product of their values to
the structure and back. -/
structure Record (α : Type) where
  title : String
  fields : List Field
  build : Slots fields → α
  parts : α → Slots fields
  build_parts : ∀ a, build (parts a) = a := by intro a; cases a; rfl

namespace Record

variable {α : Type}

def readMembers (r : Record α) (c : Context) (members : Members) : Except Fault α := do
  let (draft, stop) ← Draft.acceptAll c r.fields members (.empty r.fields)
  let slots ← draft.finish stop r.fields
  return r.build slots

def readItems (r : Record α) (c : Context) (items : Items) : Except Fault α := do
  let (slots, rest) ← Slots.ofItems c r.title r.fields.length 0 r.fields items
  Slots.finishItems c r.fields.length rest
  return r.build slots

def read (r : Record α) : Reader α
  | c, .object start members => do r.readMembers (← c.enter start) members
  | c, .list start items => do r.readItems (← c.enter start) items
  | _, d => .error (d.mistyped r.title)

def write (r : Record α) (a : α) : Json :=
  .object (Slots.toMembers r.fields (r.parts a))

def codec (r : Record α) : Codec α := ⟨r.read, r.write⟩

end Record

namespace Codec

def string : Codec String := ⟨Reader.string, .text⟩

def boolean : Codec Bool := ⟨Reader.boolean, .boolean⟩

def free : Codec FreeValue := ⟨Reader.free, FreeValue.json⟩

def natural32 : Codec UInt32 :=
  ⟨(Reader.integer 0 (count32 - 1) "u32").map fun n => .ofNat n.toNat, fun n => .integer n.toNat⟩

def integer32 : Codec Int32 :=
  ⟨(Reader.integer (-count31) (count31 - 1) "i32").map .ofInt, fun n => .integer n.toInt⟩

/-- A number of things. -/
def size : Codec Nat :=
  ⟨(Reader.integer 0 (count64 - 1) "usize").map Int.toNat, .count⟩

def doubles : Codec (Text.Table Number.Double) :=
  ⟨Reader.table Reader.double, fun t => .object (t.entries.map fun e => (e.1, .real e.2))⟩

def list {α : Type} (c : Codec α) : Codec (List α) :=
  ⟨c.read.list, fun as => .list (as.map c.write)⟩

end Codec

end DeviceTwin.Json
