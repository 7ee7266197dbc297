import DeviceTwin.Json.Reader

/-!
# Choices by name

A choice picks one of several named variants. A variant without content is its
name, or an object whose one key is the name and whose value is null; a variant
that carries a text is an object `{"name": "text"}` and nothing else. A reader of
a text calls anything that is neither string nor object, and an object that goes
on behind its first member, a missing value.
-/

namespace DeviceTwin.Json

inductive Payload (α : Type) where
  | nothing (a : α)
  | text (f : String → α)

structure Choice (α : Type) where
  variants : List (String × Payload α)

namespace Choice

variable {α : Type}

def names (v : Choice α) : List String :=
  v.variants.map (·.1)

def get? (v : Choice α) (name : String) : Option (Payload α) :=
  (v.variants.find? fun e => e.1 == name).map (·.2)

/-- The variant of a name that ends where `stop` begins. -/
def find (v : Choice α) (name : String) (stop : List Char) : Except Fault (Payload α) :=
  match v.get? name with
  | some p => .ok p
  | none => .error (.here (.unknownVariant name v.names) stop)

/-- Null stands for no content; in a buffered document so does `{}`. -/
def readNothing (c : Context) : Document → Except Fault Unit
  | .scalar _ _ .null => .ok ()
  | .object start (.close stop) =>
    if c.source = .buffered then .ok ()
    else .error (Document.mistyped "unit" (.object start (.close stop)))
  | d => .error (d.mistyped "unit")

def readPayload (c : Context) (d : Document) : Payload α → Except Fault α
  | .nothing a => do
    readNothing c d
    return a
  | .text f => do
    let s ← Reader.string c d
    return f s

/-- A bare name. -/
def ofName (v : Choice α) (name : String) (stop : List Char) : Except Fault α := do
  match ← v.find name stop with
  | .nothing a => return a
  | .text _ => .error (.unplaced (.wrongType .unitVariant "newtype variant"))

/-- The one member of an object in a text. -/
def readMember (v : Choice α) (c : Context) : Members → Except Fault α
  | .close stop => .error (.here .expectedValue stop)
  | .member key d more => do
    let p ← v.find (← key.text) key.stop
    let a ← readPayload c d p
    match more with
    | .close _ => return a
    | .stray [] => .error (.here .endInObject [])
    | _ => .error (.here .expectedValue (skipBlanks (d.stop?.getD [])))
  | .noColon key rest => do
    let _ ← v.find (← key.text) key.stop
    .error (Members.noColon key rest).fault
  | members => .error members.fault

def readText (v : Choice α) (c : Context) : Document → Except Fault α
  | .scalar _ stop (.text s) => do v.ofName (← s) stop
  | .object start members => do v.readMember (← c.enter start) members
  | .broken [] read _ => .error read
  | .broken ('"' :: _) read _ => .error read
  | d => .error (.behindNext .expectedValue d.start)

/-- A choice in a document that is known to be complete. -/
def readWhole (v : Choice α) (c : Context) : Document → Except Fault α
  | .scalar _ stop (.text s) => do v.ofName (← s) stop
  | .object _ (.member key d (.close _)) => do
    readPayload c d (← v.find (← key.text) key.stop)
  | .object start _ => .error (.here (.outOfRange .map "map with a single key") start)
  | d => .error (d.mistyped "string or map")

def read (v : Choice α) : Reader α :=
  fun c d => if c.source = .text then v.readText c d else v.readWhole c d

end Choice

end DeviceTwin.Json
