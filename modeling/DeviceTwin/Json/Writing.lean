import DeviceTwin.Json.Value

/-!
# Writing values

A layout says what stands at a line break of a given depth and behind a key. In
the compact layout both are empty of blanks; the pretty one breaks lines and
indents by two. Either way an empty list or object stays on its line, so the two
texts of a value differ in blanks only.
-/

namespace DeviceTwin.Json

open DeviceTwin.Text

structure Layout where
  lineBreak : Nat → List Char
  colon : List Char

namespace Layout

def compact : Layout := ⟨fun _ => [], [':']⟩

def pretty : Layout := ⟨fun depth => '\n' :: List.replicate (2 * depth) ' ', [':', ' ']⟩

end Layout

/-- The digits of an integer behind its sign. -/
def integerText (n : Int) : List Char :=
  if n < 0 then '-' :: decimalDigits n.natAbs else decimalDigits n.natAbs

mutual

def write (l : Layout) (depth : Nat) : Json → List Char
  | null => ['n', 'u', 'l', 'l']
  | boolean true => ['t', 'r', 'u', 'e']
  | boolean false => ['f', 'a', 'l', 's', 'e']
  | integer n => integerText n
  | real x => (realText x).toList
  | text s => Quoted.quote s.toList
  | list [] => ['[', ']']
  | list (j :: js) =>
    '[' :: l.lineBreak (depth + 1) ++ write l (depth + 1) j ++ writeItems l depth js
  | object [] => ['\x7b', '\x7d']
  | object ((k, j) :: es) =>
    '\x7b' :: l.lineBreak (depth + 1) ++ Quoted.quote k.toList ++ l.colon ++
      write l (depth + 1) j ++ writeMembers l depth es

/-- The items behind the first one and the closing bracket. -/
def writeItems (l : Layout) (depth : Nat) : List Json → List Char
  | [] => l.lineBreak depth ++ [']']
  | j :: js =>
    ',' :: l.lineBreak (depth + 1) ++ write l (depth + 1) j ++ writeItems l depth js

/-- The members behind the first one and the closing brace. -/
def writeMembers (l : Layout) (depth : Nat) : List (String × Json) → List Char
  | [] => l.lineBreak depth ++ ['\x7d']
  | (k, j) :: es =>
    ',' :: l.lineBreak (depth + 1) ++ Quoted.quote k.toList ++ l.colon ++
      write l (depth + 1) j ++ writeMembers l depth es

end

def toText (l : Layout) (j : Json) : String :=
  String.ofList (j.write l 0)

def compactText (j : Json) : String :=
  j.toText .compact

end DeviceTwin.Json
