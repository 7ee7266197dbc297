import DeviceTwin.Json.Writing

/-!
# Readers of documents

A reader takes a document to a value of a type, or to the first fault in the
order of the text. The same readers serve three sources. In a text being read,
breaks of the text are faults, at most 127 brackets may be open at once, and a
scalar where a bracket should stand is reported where it stands. A document that
has been read through once (`buffered`) or that is the value of a larger one
(`stored`) is known to be complete; only the wording of a few faults differs.
-/

namespace DeviceTwin.Json

open DeviceTwin.Text DeviceTwin.Number

/-- The most brackets that a text may have open at once. -/
def depthLimit : Nat := 127

inductive Source where
  | text
  | buffered
  | stored
  deriving DecidableEq, Repr

/-- Where a document comes from and how many more brackets may open in it. -/
structure Context where
  source : Source
  room : Nat
  deriving DecidableEq, Repr

namespace Context

def ofText : Context := ⟨.text, depthLimit⟩

def stored : Context := ⟨.stored, 0⟩

def buffered : Context := ⟨.buffered, 0⟩

/-- The context inside a bracket that opens at `start`. -/
def enter (c : Context) (start : List Char) : Except Fault Context :=
  match c.source with
  | .text =>
    match c.room with
    | 0 => .error (.behindNext .tooDeep start)
    | n + 1 => .ok { c with room := n }
  | _ => .ok c

/-- A bracket of a text takes one from the room. Anywhere else it changes nothing. -/
theorem enter_eq_ok_iff {c c' : Context} {start : List Char} :
    c.enter start = .ok c' ↔
      c'.source = c.source ∧ c.room = if c.source = .text then c'.room + 1 else c'.room := by
  obtain ⟨source, room⟩ := c
  obtain ⟨source', room'⟩ := c'
  match source, room with
  | .text, 0 => exact ⟨nofun, fun ⟨_, h⟩ => nomatch h⟩
  | .text, room + 1 | .buffered, room | .stored, room =>
      simp [enter, eq_comm]

end Context

abbrev Reader (α : Type) := Context → Document → Except Fault α

/-- The fault of a list whose next item is wanted, if the list is broken. -/
def Items.fault : Items → Fault
  | close stop => .here .trailingCharacters stop
  | item d _ => .here .trailingCharacters d.start
  | stray [] => .here .endInList []
  | stray rest => .behindNext .expectedCommaOrBracket rest
  | trailingComma rest => .behindNext .trailingComma rest
  | endAfterComma => .here .endInValue []
  | unfinished => .here .endInValue []

/-- The fault of an object whose next member is wanted, if the object is broken. -/
def Members.fault : Members → Fault
  | close stop => .here .trailingCharacters stop
  | member _ d _ => .here .trailingCharacters d.start
  | stray [] => .here .endInObject []
  | stray rest => .behindNext .expectedCommaOrBrace rest
  | trailingComma rest => .behindNext .trailingComma rest
  | endAfterComma => .here .endInValue []
  | noKey d => .behindNext .keyNotText d.start
  | noColon ⟨.error f, _⟩ _ => f
  | noColon _ [] => .here .endInObject []
  | noColon _ rest => .behindNext .expectedColon rest
  | brokenKey read _ => read
  | unfinished => .here .endInValue []

/-- The fault of a list that is passed over. -/
def Items.skipFault : Items → Fault
  | trailingComma rest => .behindNext .expectedValue rest
  | items => items.fault

/-- The fault of an object that is passed over. -/
def Members.skipFault : Members → Fault
  | trailingComma rest => .behindNext .keyNotText rest
  | endAfterComma => .here .endInObject []
  | noColon _ [] => .here .endInObject []
  | noColon _ rest => .behindNext .expectedColon rest
  | brokenKey _ skip => skip
  | members => members.fault

/-- Where an object stands that has looked for its end. -/
def closedBehind (rest : List Char) : Place :=
  match skipBlanks rest with
  | '\x7d' :: rest => .here rest
  | rest => .here rest

/-- A key that an object has given before. As for every fault of the object itself,
its end is looked for first. -/
def Fault.twice (key : String) (stop : List Char) : Fault :=
  ⟨.duplicateField key, some (closedBehind stop)⟩

namespace Document

mutual

/-- Passes over a value: only its syntax matters. -/
def skip : Document → Except Fault Unit
  | scalar .. => .ok ()
  | list _ items => skipItems items
  | object _ members => skipMembers members
  | broken _ _ skip => .error skip

def skipItems : Items → Except Fault Unit
  | .close _ => .ok ()
  | .item d more => do
    skip d
    skipItems more
  | items => .error items.skipFault

def skipMembers : Members → Except Fault Unit
  | .close _ => .ok ()
  | .member _ d more => do
    skip d
    skipMembers more
  | members => .error members.skipFault

end

/-- Reads a scalar whatever it is. -/
def checkScalar : Scalar → Except Fault Unit
  | .number (.tooLarge seen) => .error (.here .numberOutOfRange seen)
  | .text (.error f) => .error f
  | _ => .ok ()

mutual

/-- Reads a value through, whatever it is. -/
def check (c : Context) : Document → Except Fault Unit
  | scalar _ _ value => checkScalar value
  | list start items => do checkItems (← c.enter start) items
  | object start members => do checkMembers (← c.enter start) members
  | broken _ read _ => .error read

def checkItems (c : Context) : Items → Except Fault Unit
  | .close _ => .ok ()
  | .item d more => do
    check c d
    checkItems c more
  | items => .error items.fault

def checkMembers (c : Context) : Members → Except Fault Unit
  | .close _ => .ok ()
  | .member key d more => do
    let _ ← key.text
    check c d
    checkMembers c more
  | members => .error members.fault

end

/-- The fault of a value that is not of the type wanted. -/
def mistyped (wanted : String) : Document → Fault
  | scalar _ stop value =>
    match value with
    | .null => .here (.wrongType .null wanted) stop
    | .boolean b => .here (.wrongType (.boolean b) wanted) stop
    | .number (.integer n) => .here (.wrongType (.integer n.val) wanted) stop
    | .number (.real x) => .here (.wrongType (.real x) wanted) stop
    | .number (.tooLarge seen) => .here .numberOutOfRange seen
    | .text (.ok s) => .here (.wrongType (.text s) wanted) stop
    | .text (.error f) => f
  | list start _ => .here (.wrongType .sequence wanted) start
  | object start _ => .here (.wrongType .map wanted) start
  | broken _ read _ => read

/-- Where the object around a value stands once it has looked for its end behind it. -/
def behindMember (d : Document) : Place :=
  closedBehind (d.stop?.getD [])

/-- Where a list around a value stands once it has looked behind it. -/
def behindItem (d : Document) : Place :=
  match d.stop? with
  | none => .here []
  | some rest =>
    match skipBlanks rest with
    | ']' :: rest => .here rest
    | ',' :: rest => .here (skipBlanks rest)
    | rest => .here rest

end Document

namespace Reader

variable {α : Type}

def map {β : Type} (f : α → β) (r : Reader α) : Reader β :=
  fun c d => (r c d).map f

def string : Reader String
  | _, .scalar _ _ (.text s) => s
  | _, d => .error (d.mistyped "a string")

def boolean : Reader Bool
  | _, .scalar _ _ (.boolean b) => .ok b
  | _, d => .error (d.mistyped "a boolean")

/-- An integer between two bounds. -/
def integer (low high : Int) (wanted : String) : Reader Int
  | _, .scalar _ stop (.number (.integer n)) =>
    if low ≤ n.val ∧ n.val ≤ high then .ok n.val
    else .error (.here (.outOfRange (.integer n.val) wanted) stop)
  | _, d => .error (d.mistyped wanted)

/-- A number; an integer stands for the double nearest to it. -/
def double : Reader Double
  | _, .scalar _ stop (.number (.integer n)) =>
    match Double.ofInt? n.val with
    | some x => .ok x
    | none => .error (.here .numberOutOfRange stop)
  | _, .scalar _ _ (.number (.real x)) => .ok x
  | _, d => .error (d.mistyped "f64")

/-- Null stands for nothing. What begins like null is meant to be it. -/
def optional (r : Reader α) : Reader (Option α)
  | _, .scalar _ _ .null => .ok none
  | _, .broken ('n' :: _) read _ => .error read
  | c, d => (r c d).map some

def itemsOf (r : Reader α) (c : Context) : Items → Except Fault (List α)
  | .close _ => .ok []
  | .item d more => do
    let a ← settled d.behindItem (r c d)
    let as ← itemsOf r c more
    return a :: as
  | items => .error items.fault

def list (r : Reader α) : Reader (List α)
  | c, .list start items => do itemsOf r (← c.enter start) items
  | _, d => .error (d.mistyped "a sequence")

def entriesOf (r : Reader α) (c : Context) (t : Table α) : Members → Except Fault (Table α)
  | .close _ => .ok t
  | .member key d more => do
    let k ← key.text
    let a ← settled d.behindMember (r c d)
    entriesOf r c (t.insert k a) more
  | members => .error members.fault

def table (r : Reader α) : Reader (Table α)
  | c, .object start members => do entriesOf r (← c.enter start) .empty members
  | _, d => .error (d.mistyped "a map")

def free : Reader FreeValue :=
  fun c d => do
    d.check c
    return .ofDocument d

/-- Reads a whole text, in which only blanks may follow the value. -/
def readAll [RealReader] (r : Reader α) (text : List Char) : Except Fault α := do
  let d := Document.ofText text
  let a ← r .ofText d
  match d.stop?.map skipBlanks with
  | some [] => return a
  | some rest => .error (.behindNext .trailingCharacters rest)
  | none => .error (.here .endInValue [])

def readText [RealReader] (r : Reader α) (text : String) : Except Fault α :=
  r.readAll text.toList

end Reader

end DeviceTwin.Json
