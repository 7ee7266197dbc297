import DeviceTwin.Text.Shown
import DeviceTwin.Text.Split
import DeviceTwin.Toml.Quoted
import DeviceTwin.Toml.Value

/-!
# Writing TOML documents

What is written are sections of flags, texts and lists of texts. A section is a header
and a line for each key; a list of two or more texts goes over several lines.

Of the four kinds of quotes a text gets the first one that needs no escape but that of
the tab: double, single, three double, three single ones. If there is none, it stands
between double quotes with escapes, between three of them if it holds line breaks.
-/

namespace DeviceTwin.Toml

open DeviceTwin.Text DeviceTwin.Toml.Quoted

namespace Quoted

/-- The length of the longest row of one character in a text; the first number is the
length of the row that has just begun. -/
def longestRow (quote : Char) : Nat → List Char → Nat
  | n, [] => n
  | n, c :: s =>
    if c = quote then longestRow quote (n + 1) s else max n (longestRow quote 0 s)

/-- A control that no quotes allow: all but tab and line break. -/
def isHidden (c : Char) : Bool :=
  c ≠ '\n' && !isPlain c

inductive Style where
  | basic
  | literal
  | longBasic
  | longLiteral
  deriving DecidableEq, Repr

def Style.quotes : Style → List Char
  | basic => ['"']
  | literal => [single]
  | longBasic => ['"', '"', '"']
  | longLiteral => [single, single, single]

def Style.isLong : Style → Bool
  | longBasic | longLiteral => true
  | _ => false

def Style.escapes : Style → Bool
  | basic | longBasic => true
  | _ => false

/-- The quotes that a text is written in. -/
def styleOf (s : List Char) : Style :=
  let hidden := s.any isHidden
  let broken := s.contains '\n'
  let doubles := longestRow '"' 0 s
  let singles := longestRow single 0 s
  if !hidden && !s.contains '\\' && !broken && doubles = 0 then .basic
  else if !hidden && !broken && singles = 0 then .literal
  else if !hidden && !s.contains '\\' && doubles ≤ 2 then .longBasic
  else if !hidden && singles ≤ 2 then .longLiteral
  else if broken then .longBasic
  else .basic

/-- Two hexadecimal digits in capitals. -/
def twoDigits (n : Nat) : List Char :=
  [n / 16, n % 16].map fun d => if d < 10 then Char.ofNat (48 + d) else Char.ofNat (55 + d)

/-- The escape of a character other than a quote, if it needs one. -/
def escapeOf? (long : Bool) (c : Char) : Option (List Char) :=
  if c = '\x08' then some ['\\', 'b']
  else if c = '\t' then some ['\\', 't']
  else if c = '\n' then if long then none else some ['\\', 'n']
  else if c = '\x0c' then some ['\\', 'f']
  else if c = '\r' then some ['\\', 'r']
  else if c = '\\' then some ['\\', '\\']
  else if isPlain c then none
  else some ('\\' :: 'u' :: '0' :: '0' :: twoDigits c.toNat)

/-- A text with its escapes. The number counts the quotes that stand unescaped right
before the text: three of them would end a string, so a third one is escaped, and of
short strings every one is. -/
def escaped (long : Bool) : Nat → List Char → List Char
  | _, [] => []
  | n, c :: s =>
    if c = '"' then
      if long && n < 2 then c :: escaped long (n + 1) s
      else '\\' :: c :: escaped long 0 s
    else
      (escapeOf? long c).getD [c] ++ escaped long 0 s

/-- A text in its quotes. -/
def written (s : List Char) : List Char :=
  let style := styleOf s
  style.quotes ++ (if style.isLong && s.contains '\n' then ['\n'] else []) ++
    (if style.escapes then escaped style.isLong 0 s else s) ++ style.quotes

end Quoted

/-- A value that sections are written with. -/
inductive Plain where
  | flag (b : Bool)
  | text (s : String)
  | texts (ss : List String)
  deriving DecidableEq, Repr

namespace Plain

def value : Plain → Value
  | flag b => .flag b
  | text s => .text s
  | texts ss => .list (ss.map .text)

def quoted (s : String) : String :=
  String.ofList (Quoted.written s.toList)

def written : Plain → String
  | flag b => shownFlag b
  | text s => quoted s
  | texts [] => "[]"
  | texts [s] => "[" ++ quoted s ++ "]"
  | texts ss => "[\n" ++ String.join (ss.map fun s => "    " ++ quoted s ++ ",\n") ++ "]"

end Plain

structure Section where
  name : String
  entries : List (String × Plain)
  deriving DecidableEq, Repr

def Section.written (s : Section) : String :=
  "[" ++ s.name ++ "]\n" ++
    String.join (s.entries.map fun e => e.1 ++ " = " ++ e.2.written ++ "\n")

/-- A document of sections with an empty line between two of them. -/
def written (sections : List Section) : String :=
  interpose "\n" (sections.map Section.written)

end DeviceTwin.Toml
