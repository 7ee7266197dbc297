import DeviceTwin.Toml.Quoted
import DeviceTwin.Toml.Scalar
import DeviceTwin.Toml.Table

/-!
# TOML documents

A document is read in two steps. The text is cut into statements, each on lines of its
own: headers of tables and values under keys (`statements`). The statements then build
the table of the document one after the other (`build`), and fail where a key would get
two values. Brackets are nested and keys are long only up to a limit.

A program may leave this to a library for TOML. What is then expected of the library is that
it reads back what it writes of plain sections (`ofText?_written`).
-/

namespace DeviceTwin.Toml

open DeviceTwin.Text DeviceTwin.Toml.Quoted

def skipBlanks (s : List Char) : List Char :=
  s.dropWhile isBlank

/-- The rest behind the blanks and the comment that may end a line, and behind its
break or at the end of the text. -/
def endLine? (s : List Char) : Option (List Char) :=
  let s := skipBlanks s
  let s :=
    match s with
    | '#' :: s => s.dropWhile isPlain
    | s => s
  match s with
  | [] => some []
  | s => behindBreak? s

/-- The rest behind blanks, line breaks and comments, where a list may have them. The
flag says that a comment has begun. -/
def skipLines? : Bool → List Char → Option (List Char)
  | _, [] => some []
  | _, '\n' :: s => skipLines? false s
  | _, '\r' :: '\n' :: s => skipLines? false s
  | true, c :: s => if isPlain c then skipLines? true s else none
  | false, c :: s =>
    if isBlank c then skipLines? false s
    else if c = '#' then skipLines? true s
    else some (c :: s)

def isBare (c : Char) : Bool :=
  isLetter c || isDigit c || c = '_' || c = '-'

def simpleKey? (s : List Char) : Option (String × List Char) :=
  match readShort? s with
  | some (k, r) => some (String.ofList k, r)
  | none =>
    let k := s.takeWhile isBare
    if k.isEmpty then none else some (String.ofList k, s.dropWhile isBare)

/-- The most brackets that may be open at once, and the most parts of a key. -/
def depthLimit : Nat := 79

/-- The parts of a key, separated by points. The first argument is the most that there
may be. -/
def partsAt : Nat → List Char → Option (List String × List Char)
  | 0, _ => none
  | n + 1, s => do
    let (k, r) ← simpleKey? (skipBlanks s)
    match skipBlanks r with
    | '.' :: r =>
      let (ks, r) ← partsAt n r
      return (k :: ks, r)
    | r => return ([k], r)

/-- A key with the keys of the tables it is in, in front of it. -/
def keyAt (s : List Char) : Option (List String × List Char) :=
  partsAt depthLimit s

/-- The statements of a document. -/
inductive Statement where
  | header (path : List String)
  | nextHeader (path : List String)
  | pair (key : List String) (value : Value)

/-- Adds a value under a dotted key. -/
def putDotted (key : List String) (value : Value) (parts : Parts) : Option Parts :=
  key.getLast?.bind fun k => parts.put value k key.dropLast

/-- The table that the pairs between braces make. -/
def inlineTable? (pairs : List (List String × Value)) : Option Value :=
  (pairs.foldlM (fun parts p => putDotted p.1 p.2 parts) []).map fun parts =>
    .table (Parts.values parts)

mutual

/-- The value that begins a text. The first argument bounds the depth of the recursion,
and the second one is the number of brackets that may still open. -/
def valueAt : Nat → Nat → List Char → Option (Value × List Char)
  | 0, _, _ => none
  | _, _, [] => none
  | n + 1, room, c :: s =>
    if c = '"' ∨ c = single then
      (Quoted.read? (c :: s)).map fun (t, r) => (.text (String.ofList t), r)
    else if c = '[' then
      match room with
      | 0 => none
      | room + 1 => (itemsAt n room s).map fun (vs, r) => (.list vs, r)
    else if c = '\x7b' then
      match room with
      | 0 => none
      | room + 1 => do
        let (ps, r) ← pairsAt n room false s
        return (← inlineTable? ps, r)
    else
      match Moment.read? (c :: s) with
      | some (m, r) => some (.moment m, r)
      | none => Scalar.read? (c :: s)

/-- The items of a list, from behind its bracket or a comma on. -/
def itemsAt : Nat → Nat → List Char → Option (List Value × List Char)
  | 0, _, _ => none
  | n + 1, room, s => do
    match ← skipLines? false s with
    | ']' :: r => return ([], r)
    | s =>
      let (v, r) ← valueAt n room s
      match ← skipLines? false r with
      | ']' :: r => return ([v], r)
      | ',' :: r =>
        let (vs, r) ← itemsAt n room r
        return (v :: vs, r)
      | _ => none

/-- The pairs of an inline table, from behind its brace or a comma on. A comma is
followed by a pair. -/
def pairsAt :
    Nat → Nat → Bool → List Char → Option (List (List String × Value) × List Char)
  | 0, _, _, _ => none
  | n + 1, room, comma, s => do
    match comma, skipBlanks s with
    | false, '\x7d' :: r => return ([], r)
    | _, s =>
      let (k, r) ← keyAt s
      match r with
      | '=' :: r =>
        let (v, r) ← valueAt n room (skipBlanks r)
        match skipBlanks r with
        | '\x7d' :: r => return ([(k, v)], r)
        | ',' :: r =>
          let (ps, r) ← pairsAt n room true r
          return ((k, v) :: ps, r)
        | _ => none
      | _ => none

end

/-- A header behind its first bracket, and the rest behind its line. -/
def headerAt (s : List Char) : Option (Statement × List Char) :=
  match s with
  | '[' :: s => do
    let (path, r) ← keyAt s
    match r with
    | ']' :: ']' :: r => return (.nextHeader path, ← endLine? r)
    | _ => none
  | s => do
    let (path, r) ← keyAt s
    match r with
    | ']' :: r => return (.header path, ← endLine? r)
    | _ => none

/-- A key and its value, and the rest behind their line. -/
def pairAt (s : List Char) : Option (Statement × List Char) := do
  let (key, r) ← keyAt s
  match r with
  | '=' :: r =>
    let (v, r) ← valueAt (2 * r.length + 2) depthLimit (skipBlanks r)
    return (.pair key v, ← endLine? r)
  | _ => none

def statementsAt : Nat → List Char → Option (List Statement)
  | 0, _ => none
  | n + 1, s =>
    match skipBlanks s with
    | [] => some []
    | '[' :: s => do
      let (x, r) ← headerAt s
      return x :: (← statementsAt n r)
    | c :: s =>
      if c = '#' ∨ c = '\n' ∨ c = '\r' then do
        statementsAt n (← endLine? (c :: s))
      else do
        let (x, r) ← pairAt (c :: s)
        return x :: (← statementsAt n r)

def statements (s : List Char) : Option (List Statement) :=
  statementsAt (s.length + 1) s

/-- The tables so far and the path of the table that pairs are for. -/
structure Building where
  parts : Parts
  path : List String

def Building.add (b : Building) : Statement → Option Building
  | .header path => do
    let key ← path.getLast?
    return ⟨← Parts.within (Parts.openTable? key) path.dropLast b.parts, path⟩
  | .nextHeader path => do
    let key ← path.getLast?
    return ⟨← Parts.within (Parts.openNext? key) path.dropLast b.parts, path⟩
  | .pair key value => do
    return { b with parts := ← Parts.within (putDotted key value) b.path b.parts }

def build (ss : List Statement) : Option (List (String × Value)) :=
  (ss.foldlM Building.add ⟨[], []⟩).map fun b => Parts.values b.parts

/-- A text without the mark of the octet order that may stand in front of it. -/
def withoutMark : List Char → List Char
  | '\ufeff' :: s => s
  | s => s

/-- The table of a document. -/
def ofText? (s : List Char) : Option (List (String × Value)) :=
  (statements (withoutMark s)).bind build

end DeviceTwin.Toml
