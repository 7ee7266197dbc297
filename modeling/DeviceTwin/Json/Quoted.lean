import DeviceTwin.Json.Numeral

/-!
# Quoted texts

Between the quotes of a string a backslash begins an escape: a letter, or four
hexadecimal digits that name a UTF-16 unit. Two such units name one character
above the basic plane, and a unit that is half of such a pair and stands alone
names nothing.

A reader that wants the text (`read`) refuses lone halves; one that passes over a
string (`skip`) only looks for its end and minds no pairs. Writing (`quote`) marks
quote, backslash and the controls below the space and nothing else.
-/

namespace DeviceTwin.Json.Quoted

open DeviceTwin.Text

/-- Four hexadecimal digits. Fewer than four octets are the end of the text. -/
def hexUnit (s : List Char) : Except Fault (Nat × List Char) :=
  if octets (s.take 4) < 4 then .error (.here .endInString [])
  else
    match s with
    | a :: b :: c :: d :: rest =>
      match hexValue? a, hexValue? b, hexValue? c, hexValue? d with
      | some a, some b, some c, some d => .ok (((a * 16 + b) * 16 + c) * 16 + d, rest)
      | _, _, _, _ => .error ⟨.invalidEscape, some ⟨s, 4⟩⟩
    | _ => .error ⟨.invalidEscape, some ⟨s, 4⟩⟩

def isLeading (n : Nat) : Bool := 0xD800 ≤ n && n ≤ 0xDBFF

def isTrailing (n : Nat) : Bool := 0xDC00 ≤ n && n ≤ 0xDFFF

/-- The character above the basic plane that two halves name. -/
def joined (leading trailing : Nat) : Char :=
  Char.ofNat ((leading - 0xD800) * 0x400 + (trailing - 0xDC00) + 0x10000)

/-- The second half of a pair, with its own escape. -/
def trailingHalf (leading : Nat) : List Char → Except Fault (Char × List Char)
  | [] => .error (.here .endInString [])
  | '\\' :: [] => .error (.here .endInString [])
  | '\\' :: 'u' :: s => do
    let (n, rest) ← hexUnit s
    if isTrailing n then
      return (joined leading n, rest)
    else
      .error (.here .loneSurrogate rest)
  | '\\' :: s => .error (.behindNext .endOfHexEscape s)
  | s => .error (.behindNext .endOfHexEscape s)

/-- The character that a letter behind a backslash stands for. -/
def escapeLetter? : Char → Option Char
  | '"' => some '"'
  | '\\' => some '\\'
  | '/' => some '/'
  | 'b' => some '\x08'
  | 'f' => some '\x0c'
  | 'n' => some '\n'
  | 'r' => some '\r'
  | 't' => some '\t'
  | _ => none

/-- What stands behind a backslash. -/
def escape : List Char → Except Fault (Char × List Char)
  | [] => .error (.here .endInString [])
  | 'u' :: s => do
    let (n, rest) ← hexUnit s
    if isTrailing n then
      .error (.here .loneSurrogate rest)
    else if isLeading n then
      trailingHalf n rest
    else
      return (Char.ofNat n, rest)
  | c :: s =>
    match escapeLetter? c with
    | some x => .ok (x, s)
    | none => .error (.behindNext .invalidEscape (c :: s))

/-- The text up to the closing quote. The first argument is a text that is no shorter;
each step takes one character from it. -/
def readWithin : List Char → List Char → Except Fault (List Char × List Char)
  | [], _ => .error (.here .endInString [])
  | _, [] => .error (.here .endInString [])
  | _ :: bound, c :: s =>
    if c = '"' then .ok ([], s)
    else if c = '\\' then do
      let (x, rest) ← escape s
      let (xs, rest) ← readWithin bound rest
      return (x :: xs, rest)
    else if c.toNat < 32 then .error (.here .controlCharacter s)
    else do
      let (xs, rest) ← readWithin bound s
      return (c :: xs, rest)

def read (s : List Char) : Except Fault (List Char × List Char) :=
  readWithin s s

/-- The rest behind the closing quote, bounded like the reading of the text. -/
def skipWithin : List Char → List Char → Except Fault (List Char)
  | [], _ => .error (.here .endInString [])
  | _, [] => .error (.here .endInString [])
  | _ :: bound, c :: s =>
    if c = '"' then .ok s
    else if c = '\\' then
      match s with
      | [] => .error (.here .endInString [])
      | 'u' :: r => do
        let (_, rest) ← hexUnit r
        skipWithin bound rest
      | e :: r =>
        if (escapeLetter? e).isSome then skipWithin bound r
        else .error (.behindNext .invalidEscape (e :: r))
    else if c.toNat < 32 then .error (.here .controlCharacter (c :: s))
    else skipWithin bound s

def skip (s : List Char) : Except Fault (List Char) :=
  skipWithin s s

/-- The text of a string whose end is known, or why it stands for none. -/
def text (s : List Char) : Except Fault String :=
  (read s).map fun (cs, _) => String.ofList cs

/-- A control in four hexadecimal digits. -/
def byCode (c : Char) : List Char :=
  ['\\', 'u', '0', '0', hexDigit (c.toNat / 16), hexDigit (c.toNat % 16)]

def quoteChar (c : Char) : List Char :=
  if c = '"' then ['\\', '"']
  else if c = '\\' then ['\\', '\\']
  else if c = '\x08' then ['\\', 'b']
  else if c = '\t' then ['\\', 't']
  else if c = '\n' then ['\\', 'n']
  else if c = '\x0c' then ['\\', 'f']
  else if c = '\r' then ['\\', 'r']
  else if c.toNat < 32 then byCode c
  else [c]

def quote (s : List Char) : List Char :=
  '"' :: s.flatMap quoteChar ++ ['"']

end DeviceTwin.Json.Quoted
