import DeviceTwin.Json.Quoted

/-!
# Documents as far as they can be read

A document is read from left to right and the first problem met decides, be it
a broken text or a value of the wrong form. To keep the two apart, the text is
first turned into a tree (`Document.ofText`) that holds everything up to the
point where the text breaks and says there how it breaks; decoders then walk the
tree in the order of the text and meet the break where a reader of the text would
have met it.

How a break is reported depends on who meets it, so the ends `Items` and
`Members` say what is there (`stray`, `trailingComma`, …) and not what to call it.
A value that is passed over is held to less: numbers may be too large, escapes
may name no character, and brackets may nest without limit.

A program may leave all this to a library for JSON. Two laws say what is then expected of
the library: the text that is written for a value holds that value and nothing else
(`Document.ofText_write`), and of a text that is read only the tree matters, not how it is
spelled (`Spelling.Spells.readText_eq_ok_iff`).
-/

namespace DeviceTwin.Json

/-- A key, or why its escapes name no text, and the place behind it. -/
structure Key where
  text : Except Fault String
  stop : List Char

inductive Scalar where
  | null
  | boolean (b : Bool)
  | number (n : Number)
  | text (s : Except Fault String)

mutual

/-- A value. Its faults, if it is no complete value, are the one of a reader and
the one of a reader that passes over it. -/
inductive Document where
  | scalar (start stop : List Char) (value : Scalar)
  | list (start : List Char) (items : Items)
  | object (start : List Char) (members : Members)
  | broken (start : List Char) (read skip : Fault)

/-- What stands between brackets, up to the closing one or to the break. -/
inductive Items where
  | close (stop : List Char)
  | item (value : Document) (more : Items)
  | stray (rest : List Char)
  | trailingComma (rest : List Char)
  | endAfterComma
  | unfinished

/-- What stands between braces. `noKey` holds the value that begins where a key
should. -/
inductive Members where
  | close (stop : List Char)
  | member (key : Key) (value : Document) (more : Members)
  | stray (rest : List Char)
  | trailingComma (rest : List Char)
  | endAfterComma
  | noKey (instead : Document)
  | noColon (key : Key) (rest : List Char)
  | brokenKey (read skip : Fault)
  | unfinished

end

def isBlank (c : Char) : Bool :=
  c = ' ' || c = '\t' || c = '\n' || c = '\r'

def skipBlanks (s : List Char) : List Char :=
  s.dropWhile isBlank

/-- The rest behind the closing bracket, if the list is complete. -/
def Items.stop? : Items → Option (List Char)
  | .close stop => some stop
  | .item _ more => more.stop?
  | _ => none

def Members.stop? : Members → Option (List Char)
  | .close stop => some stop
  | .member _ _ more => more.stop?
  | _ => none

namespace Document

def start : Document → List Char
  | scalar start .. => start
  | list start _ => start
  | object start _ => start
  | broken start .. => start

/-- The rest behind a value, if it is complete. -/
def stop? : Document → Option (List Char)
  | scalar _ stop _ => some stop
  | list _ items => items.stop?
  | object _ members => members.stop?
  | broken .. => none

mutual

/-- The number of brackets nested in each other. -/
def height : Document → Nat
  | scalar .. => 0
  | list _ items => itemsHeight items + 1
  | object _ members => membersHeight members + 1
  | broken .. => 0

def itemsHeight : Items → Nat
  | .item d more => max (height d) (itemsHeight more)
  | _ => 0

def membersHeight : Members → Nat
  | .member _ d more => max (height d) (membersHeight more)
  | _ => 0

end

/-- One of the words `null`, `true` and `false`, whose first letter is `s`'s. -/
def word (value : Scalar) (letters : List Char) (s : List Char) : Document :=
  go letters (s.drop 1)
where
  go : List Char → List Char → Document
    | [], rest => .scalar s rest value
    | _ :: _, [] => .broken s (.here .endInValue []) (.here .endInValue [])
    | l :: ls, c :: rest =>
      if l = c then go ls rest
      else
        .broken s (.behindNext .expectedWord (c :: rest))
          (.behindNext .expectedWord (c :: rest))

def ofString (s : List Char) : Document :=
  match Quoted.skip (s.drop 1) with
  | .ok rest => .scalar s rest (.text (Quoted.text (s.drop 1)))
  | .error skip =>
    match Quoted.read (s.drop 1) with
    | .ok _ => .broken s skip skip
    | .error read => .broken s read skip

def ofNumber [RealReader] (s : List Char) : Document :=
  match Numeral.scan s with
  | .found n rest => .scalar s rest (.number (n.number rest))
  | .fault read skip => .broken s read skip

def keyAt (s : List Char) : Except (Fault × Fault) Key :=
  match Quoted.skip s with
  | .ok rest => .ok ⟨Quoted.text s, rest⟩
  | .error skip =>
    match Quoted.read s with
    | .ok _ => .error (skip, skip)
    | .error read => .error (read, skip)

section Reading

variable [RealReader]

mutual

/-- The value at the beginning of a text. The first argument bounds the depth of
the recursion, which takes at most three steps for each character. -/
def valueAt : Nat → List Char → Document
  | 0, s => .broken s (.here .expectedValue s) (.here .expectedValue s)
  | n + 1, s =>
    let s := skipBlanks s
    match s with
    | [] => .broken [] (.here .endInValue []) (.here .endInValue [])
    | c :: rest =>
      if c = '"' then ofString s
      else if c = '[' then .list s (itemsFrom n rest)
      else if c = '\x7b' then .object s (membersFrom n rest)
      else if c = 'n' then word .null ['u', 'l', 'l'] s
      else if c = 't' then word (.boolean true) ['r', 'u', 'e'] s
      else if c = 'f' then word (.boolean false) ['a', 'l', 's', 'e'] s
      else if c = '-' || Text.isDigit c then ofNumber s
      else .broken s (.behindNext .expectedValue s) (.behindNext .expectedValue s)

/-- What stands behind an opening bracket. -/
def itemsFrom : Nat → List Char → Items
  | 0, _ => .unfinished
  | n + 1, s =>
    match skipBlanks s with
    | [] => .stray []
    | ']' :: stop => .close stop
    | s => itemsAt n s

/-- The items of a list from one of them on. -/
def itemsAt : Nat → List Char → Items
  | 0, _ => .unfinished
  | n + 1, s =>
    let d := valueAt n s
    .item d
      (match d.stop? with
      | none => .unfinished
      | some rest =>
        match skipBlanks rest with
        | ']' :: stop => .close stop
        | ',' :: rest =>
          match skipBlanks rest with
          | [] => .endAfterComma
          | ']' :: r => .trailingComma (']' :: r)
          | s => itemsAt n s
        | rest => .stray rest)

/-- What stands behind an opening brace. -/
def membersFrom : Nat → List Char → Members
  | 0, _ => .unfinished
  | n + 1, s =>
    match skipBlanks s with
    | [] => .stray []
    | '\x7d' :: stop => .close stop
    | s => membersAt n s

/-- The members of an object from one of them on. -/
def membersAt : Nat → List Char → Members
  | 0, _ => .unfinished
  | n + 1, s =>
    match s with
    | '"' :: r =>
      match keyAt r with
      | .error (read, skip) => .brokenKey read skip
      | .ok key =>
        match skipBlanks key.stop with
        | ':' :: v =>
          let d := valueAt n v
          .member key d
            (match d.stop? with
            | none => .unfinished
            | some rest =>
              match skipBlanks rest with
              | '\x7d' :: stop => .close stop
              | ',' :: rest =>
                match skipBlanks rest with
                | [] => .endAfterComma
                | '\x7d' :: r => .trailingComma ('\x7d' :: r)
                | s => membersAt n s
              | rest => .stray rest)
        | rest => .noColon key rest
    | s => .noKey (valueAt n s)

end

def ofText (text : List Char) : Document :=
  valueAt (3 * text.length + 3) text

end Reading

end Document

end DeviceTwin.Json
