import DeviceTwin.Text.Classes
import DeviceTwin.Text.Unseen

/-!
# Texts shown in messages

A message shows a text between double quotes so that a reader can tell what it
holds: quote and backslash are marked by a backslash, the usual controls by a
letter, and every other character that cannot be seen by its number in braces.
-/

namespace DeviceTwin.Text

/-- The number of a character in braces, in small hexadecimal digits. -/
def byNumber (c : Char) : List Char :=
  '\\' :: 'u' :: '\x7b' :: hexDigits c.toNat ++ ['\x7d']

def shownChar (c : Char) : List Char :=
  if c = '\x00' then ['\\', '0']
  else if c = '\t' then ['\\', 't']
  else if c = '\r' then ['\\', 'r']
  else if c = '\n' then ['\\', 'n']
  else if c = '"' then ['\\', '"']
  else if c = '\\' then ['\\', '\\']
  else if c.toNat < 32 || c.toNat = 127 then byNumber c
  else if c.toNat < 127 then [c]
  else if isUnseen c then byNumber c
  else [c]

def shown (s : String) : String :=
  String.ofList ('"' :: s.toList.flatMap shownChar ++ ['"'])

/-- The word for a flag. -/
def shownFlag (b : Bool) : String :=
  if b then "true" else "false"

end DeviceTwin.Text
