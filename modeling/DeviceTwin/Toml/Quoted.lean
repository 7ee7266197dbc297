import DeviceTwin.Text.Classes

/-!
# Strings of TOML documents

A string stands between double or single quotes, one or three of them on either side.
Between single quotes every character stands for itself; between double quotes a
backslash begins an escape. Only strings between three quotes may hold line breaks, a
break right behind the opening quotes is no part of the string, and up to two quotes
may stand right before the closing ones.
-/

namespace DeviceTwin.Toml.Quoted

open DeviceTwin.Text

/-- The single quote. -/
def single : Char := '\x27'

/-- A character that may stand for itself in a string or a comment: the tab and all
that is no control. -/
def isPlain (c : Char) : Bool :=
  c = '\t' || (32 ≤ c.toNat && c.toNat ≠ 127)

/-- The character that a letter behind a backslash stands for. -/
def escapeLetter? : Char → Option Char
  | '"' => some '"'
  | '\\' => some '\\'
  | 'b' => some '\x08'
  | 'f' => some '\x0c'
  | 'n' => some '\n'
  | 'r' => some '\r'
  | 't' => some '\t'
  | _ => none

/-- The character whose number hexadecimal digits spell. -/
def charOfHex? (ds : List Char) : Option Char :=
  match ds.mapM hexValue? with
  | none => none
  | some vs =>
    let n := vs.foldl (fun n v => 16 * n + v) 0
    if n < 0xD800 ∨ (0xDFFF < n ∧ n < 0x110000) then some (Char.ofNat n) else none

/-- The character that an escape stands for, behind its backslash. -/
def escape? : List Char → Option (Char × List Char)
  | 'u' :: s => if 4 ≤ s.length then (charOfHex? (s.take 4)).map (·, s.drop 4) else none
  | 'U' :: s => if 8 ≤ s.length then (charOfHex? (s.take 8)).map (·, s.drop 8) else none
  | c :: s => (escapeLetter? c).map (·, s)
  | [] => none

/-- What a reader of a string found: the string and what stands behind it. -/
abbrev Found := Option (List Char × List Char)

/-- Puts a character in front of what was found. -/
def Found.cons (c : Char) (f : Found) : Found :=
  f.map fun (t, r) => (c :: t, r)

@[simp] theorem Found.cons_some (c : Char) (t r : List Char) :
    Found.cons c (some (t, r)) = some (c :: t, r) := rfl

@[simp] theorem Found.cons_none (c : Char) : Found.cons c none = none := rfl

/-- The string up to a closing single quote. -/
def literal : List Char → Found
  | [] => none
  | c :: s =>
    if c = single then some ([], s)
    else if isPlain c then (literal s).cons c
    else none

/-- The string up to a closing double quote. The first argument bounds the number of
its characters. -/
def basic : Nat → List Char → Found
  | 0, _ => none
  | _, [] => none
  | n + 1, c :: s =>
    if c = '"' then some ([], s)
    else if c = '\\' then (escape? s).bind fun (x, s) => (basic n s).cons x
    else if isPlain c then (basic n s).cons c
    else none

/-- What three quotes close, if up to two more of them follow. -/
def closing (quote : Char) : List Char → Found
  | a :: b :: s =>
    if a = quote then
      if b = quote then some ([quote, quote], s) else some ([quote], b :: s)
    else
      some ([], a :: b :: s)
  | [a] => if a = quote then some ([quote], []) else some ([], [a])
  | [] => some ([], [])

/-- The rest behind three quotes. -/
def behindThree? (quote : Char) : List Char → Option (List Char)
  | a :: b :: c :: s => if a = quote ∧ b = quote ∧ c = quote then some s else none
  | _ => none

/-- The rest behind a line break. -/
def behindBreak? : List Char → Option (List Char)
  | '\n' :: s => some s
  | '\r' :: '\n' :: s => some s
  | _ => none

def isBlank (c : Char) : Bool :=
  c = ' ' || c = '\t'

/-- The rest behind blanks and line breaks. -/
def behindSpace : List Char → List Char
  | '\r' :: '\n' :: s => behindSpace s
  | c :: s => if isBlank c || c = '\n' then behindSpace s else c :: s
  | [] => []

/-- The rest behind a line break that a backslash takes away: the blanks up to it, and
all blanks and line breaks behind it. -/
def behindFold? (s : List Char) : Option (List Char) :=
  (behindBreak? (s.dropWhile isBlank)).map behindSpace

/-- The string up to three closing single quotes. -/
def longLiteral : Nat → List Char → Found
  | 0, _ => none
  | n + 1, s =>
    match behindThree? single s with
    | some s => closing single s
    | none =>
      match behindBreak? s with
      | some s => (longLiteral n s).cons '\n'
      | none =>
        match s with
        | [] => none
        | c :: s => if isPlain c then (longLiteral n s).cons c else none

/-- The string up to three closing double quotes. -/
def longBasic : Nat → List Char → Found
  | 0, _ => none
  | n + 1, s =>
    match behindThree? '"' s with
    | some s => closing '"' s
    | none =>
      match behindBreak? s with
      | some s => (longBasic n s).cons '\n'
      | none =>
        match s with
        | [] => none
        | c :: s =>
          if c = '\\' then
            match behindFold? s with
            | some s => longBasic n s
            | none => (escape? s).bind fun (x, s) => (longBasic n s).cons x
          else if isPlain c then (longBasic n s).cons c
          else none

/-- A string without the line break that its opening quotes end the line with. -/
def withoutBreak (s : List Char) : List Char :=
  (behindBreak? s).getD s

/-- The string that begins a text. -/
def read? (s : List Char) : Found :=
  match behindThree? '"' s with
  | some s => longBasic (s.length + 1) (withoutBreak s)
  | none =>
    match behindThree? single s with
    | some s => longLiteral (s.length + 1) (withoutBreak s)
    | none =>
      match s with
      | [] => none
      | c :: s =>
        if c = '"' then basic (s.length + 1) s
        else if c = single then literal s
        else none

/-- The string that begins a text and does not go over several lines. -/
def readShort? : List Char → Found
  | [] => none
  | c :: s =>
    if c = '"' then basic (s.length + 1) s
    else if c = single then literal s
    else none

end DeviceTwin.Toml.Quoted
