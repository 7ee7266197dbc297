import DeviceTwin.Json.Record

/-!
# Variants told apart by a member

An object of a tagged type says by one of its members which variant it is; the
other members are the fields of that variant. As the tag may stand behind them,
the whole object is read through first and the fields are taken from it then; only
the tag itself is judged as it is met. A list gives the tag first and the fields
behind it.
-/

namespace DeviceTwin.Json

structure Variant (α : Type) where
  tag : String
  title : String
  fields : List Field
  build : Slots fields → α

/-- A type of tagged variants; `parts` takes a value to its variant and fields. -/
structure Tagged (α : Type) where
  key : String
  title : String
  variants : List (Variant α)
  parts : α → Σ v : Variant α, Slots v.fields

namespace Tagged

variable {α : Type}

def tags (t : Tagged α) : List String :=
  t.variants.map (·.tag)

/-- The variant that a tag names, by its place in the list of variants. -/
def readTag (t : Tagged α) (d : Document) : Except Fault (Fin t.variants.length) :=
  match d with
  | .scalar _ stop (.text s) => do
    let name ← s
    match t.variants.findFinIdx? fun v => v.tag == name with
    | some i => return i
    | none => .error (.here (.unknownVariant name t.tags) stop)
  | d => .error (d.mistyped "variant identifier")

/-- Reads an object through; the variant is the one of its tag. -/
def readThrough (t : Tagged α) (c : Context) (found : Option (Fin t.variants.length)) :
    Members → Except Fault (Fin t.variants.length)
  | .close stop =>
    match found with
    | some i => .ok i
    | none => .error (.here (.missingField t.key) stop)
  | .member key d more => do
    let k ← key.text
    if k = t.key then
      match found with
      | some _ => .error (.twice t.key key.stop)
      | none =>
        let i ← t.readTag d
        readThrough t c (some i) more
    else do
      d.check c
      readThrough t c found more
  | .noColon key rest => do
    if (← key.text) = t.key ∧ found.isSome then
      .error (.twice t.key rest)
    else .error (Members.noColon key rest).fault
  | members => .error members.fault

end Tagged

namespace Variant

variable {α : Type}

def ofMembers (v : Variant α) (members : Members) : Except Fault α := do
  let (draft, stop) ← Draft.acceptAll .buffered v.fields members (.empty v.fields)
  let slots ← draft.finish stop v.fields
  return v.build slots

def ofItems (v : Variant α) (items : Items) : Except Fault α := do
  let (slots, rest) ← Slots.ofItems .buffered v.title v.fields.length 0 v.fields items
  Slots.finishItems .buffered v.fields.length rest
  return v.build slots

end Variant

namespace Tagged

variable {α : Type}

def read (t : Tagged α) : Reader α
  | c, .object start members => do
    let i ← t.readThrough (← c.enter start) none members
    t.variants[i].ofMembers members
  | c, .list start items => do
    let c ← c.enter start
    match items with
    | .item d more =>
      let i ← t.readTag d
      Document.checkItems c more
      t.variants[i].ofItems more
    | .close stop => .error (.here (.missingField t.key) stop)
    | items => .error items.fault
  | _, d => .error (d.mistyped t.title)

def write (t : Tagged α) (a : α) : Json :=
  let ⟨v, slots⟩ := t.parts a
  .object ((t.key, .text v.tag) :: Slots.toMembers v.fields slots)

def codec (t : Tagged α) : Codec α := ⟨t.read, t.write⟩

end Tagged

end DeviceTwin.Json
