/-!
# Classes of characters

All grammars of this library are ASCII grammars: a letter or digit outside ASCII
belongs to no class here. The classes are decided on code points, so membership
of a given character is a computation.
-/

namespace DeviceTwin.Text

def isDigit (c : Char) : Bool :=
  48 ≤ c.toNat && c.toNat ≤ 57

def isUpper (c : Char) : Bool :=
  65 ≤ c.toNat && c.toNat ≤ 90

def isLower (c : Char) : Bool :=
  97 ≤ c.toNat && c.toNat ≤ 122

def isLetter (c : Char) : Bool :=
  isUpper c || isLower c

def toLower (c : Char) : Char :=
  if isUpper c then Char.ofNat (c.toNat + 32) else c

def digitValue (c : Char) : Nat :=
  c.toNat - 48

/-- The number that a row of decimal digits spells. -/
def decimalValue (ds : List Char) : Nat :=
  ds.foldl (fun n c => 10 * n + digitValue c) 0

/-- The value of a hexadecimal digit. -/
def hexValue? (c : Char) : Option Nat :=
  if isDigit c then some (c.toNat - 48)
  else if 97 ≤ c.toNat && c.toNat ≤ 102 then some (c.toNat - 87)
  else if 65 ≤ c.toNat && c.toNat ≤ 70 then some (c.toNat - 55)
  else none

/-- The hexadecimal digit of a number below sixteen, in small letters. -/
def hexDigit (n : Nat) : Char :=
  if n < 10 then Char.ofNat (48 + n) else Char.ofNat (87 + n)

/-- The decimal digits of a number, without leading zeros. -/
def decimalDigits (n : Nat) : List Char :=
  Nat.toDigits 10 n

/-- The hexadecimal digits of a number, without leading zeros. -/
def hexDigits (n : Nat) : List Char :=
  Nat.toDigits 16 n

end DeviceTwin.Text
