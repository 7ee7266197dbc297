import DeviceTwin.Json.Fault
import DeviceTwin.Text.Classes

/-!
# Numerals

A numeral is a number as it is spelled: sign, whole part, fraction, exponent.
Without fraction and exponent it is an integer if it fits in 64 bits, signed or
unsigned; `-0` and every other numeral is a real. A real that no finite double is
near to is too large, which is a fault only where the number is wanted. It is seen at
the end of the numeral, or earlier in the digits of an exponent above all bounds.

Which double a real is taken for is left open: readers that trade the last bit for speed
are common. A `RealReader` makes the choice, and of it only `RealReader.ReadsBack` is
ever assumed, that a double comes back from its own text, and of the doubles that are
written only (`RealReader.Keeps`). The reader that takes the nearest double is
`Concrete.nearestReal`.

Reading a numeral (`read`) and passing over it (`skip`) accept the same texts.
They differ in what they say of a numeral that stops short.
-/

namespace DeviceTwin.Json

open DeviceTwin.Text DeviceTwin.Number

structure Numeral where
  negative : Bool
  whole : List Char
  fraction : List Char
  exponent : Option (Bool × List Char)
  deriving DecidableEq, Repr

/-- An integer of 64 bits, signed or unsigned. -/
structure WideInt where
  val : Int
  fits : IsWide64 val
  deriving DecidableEq, Repr

inductive Number where
  | integer (n : WideInt)
  | real (x : Double)
  | tooLarge (seen : List Char)
  deriving DecidableEq, Repr

/-- What a numeral that is no integer is taken for, if a finite double is near to it. -/
class RealReader where
  double? : Numeral → Option Double

namespace Numeral

/-- The power of ten that an exponent spells. -/
def power : Option (Bool × List Char) → Int
  | none => 0
  | some (negative, ds) => if negative then -(decimalValue ds : Int) else decimalValue ds

/-- The largest exponent that is read to its end. -/
def exponentLimit : Nat := 2147483647

/-- The digits behind the one that takes an exponent over the limit; `value` is what
the digits before spell. -/
def behindLimit (value : Nat) : List Char → List Char
  | [] => []
  | d :: ds =>
    let value := 10 * value + digitValue d
    if exponentLimit < value then ds else behindLimit value ds

/-- The digits of the exponent that are not looked at. -/
def unread (n : Numeral) : List Char :=
  match n.exponent with
  | some (false, ds) => behindLimit 0 ds
  | _ => []

/-- The double nearest to a numeral. -/
def nearest? (n : Numeral) : Option Double :=
  Double.ofDecimal n.negative (decimalValue (n.whole ++ n.fraction))
    (power n.exponent - n.fraction.length)

/-- The real that a numeral in front of `rest` stands for. -/
def real [RealReader] (n : Numeral) (rest : List Char) : Number :=
  match RealReader.double? n with
  | some x => .real x
  | none => .tooLarge (n.unread ++ rest)

/-- The integer that a numeral without fraction and exponent stands for. -/
def integer? (n : Numeral) : Option WideInt :=
  if n.fraction.isEmpty && n.exponent.isNone then
    let v : Int := decimalValue n.whole
    let v := if n.negative then -v else v
    if n.negative && v = 0 then none
    else if h : IsWide64 v then some ⟨v, h⟩
    else none
  else none

/-- The number that a numeral in front of `rest` stands for. -/
def number [RealReader] (n : Numeral) (rest : List Char) : Number :=
  match n.integer? with
  | some i => .integer i
  | none => n.real rest

end Numeral

/-- What a scanner finds: a value and the rest, or what to say when it was
wanted and what to say when it was to be passed over. -/
inductive Scan (α : Type) where
  | found (value : α) (rest : List Char)
  | fault (read skip : Fault)

namespace Scan

variable {α β : Type}

def bind (s : Scan α) (f : α → List Char → Scan β) : Scan β :=
  match s with
  | found a rest => f a rest
  | fault r k => .fault r k

def map (f : α → β) (s : Scan α) : Scan β :=
  s.bind fun a rest => .found (f a) rest

end Scan

namespace Numeral

/-- The fault of a place where a digit is missing. At the end of the text a
reader says that the text ends. -/
def short (rest : List Char) : Scan Numeral :=
  match rest with
  | [] => .fault (.here .endInValue []) (.here .invalidNumber [])
  | _ :: _ =>
    .fault (.behindNext .invalidNumber rest) (.behindNext .invalidNumber rest)

def digits (s : List Char) : List Char × List Char :=
  (s.takeWhile isDigit, s.dropWhile isDigit)

def scanExponent (n : Numeral) (s : List Char) : Scan Numeral :=
  let (negative, s) :=
    match s with
    | '+' :: r => (false, r)
    | '-' :: r => (true, r)
    | _ => (false, s)
  match digits s with
  | ([], _) => short s
  | (ds, rest) => .found { n with exponent := some (negative, ds) } rest

/-- The exponent, if there is one. -/
def scanTail (n : Numeral) : List Char → Scan Numeral
  | 'e' :: s => scanExponent n s
  | 'E' :: s => scanExponent n s
  | s => .found n s

def scanFraction (n : Numeral) : List Char → Scan Numeral
  | '.' :: s =>
    match digits s with
    | ([], _) => short s
    | (ds, rest) => scanTail { n with fraction := ds } rest
  | s => scanTail n s

/-- The part behind the sign. A zero stands alone before the point. -/
def scanSize (negative : Bool) (s : List Char) : Scan Numeral :=
  match digits s with
  | ([], _) => short s
  | (['0'], rest) => scanFraction ⟨negative, ['0'], [], none⟩ rest
  | ('0' :: _ :: _, _) =>
    .fault (.behindNext .invalidNumber (s.drop 1)) (.behindNext .invalidNumber (s.drop 1))
  | (ds, rest) => scanFraction ⟨negative, ds, [], none⟩ rest

def scan : List Char → Scan Numeral
  | '-' :: s => scanSize true s
  | s => scanSize false s

end Numeral

namespace RealReader

variable [RealReader]

/-- The text of a double is read as that double. -/
def Keeps (x : Double) : Prop :=
  ∀ n, Numeral.scan (realText x).toList = .found n [] → double? n = some x

/-- Every double comes back from its own text. -/
def ReadsBack : Prop :=
  ∀ x : Double, Keeps x

end RealReader

end DeviceTwin.Json

namespace DeviceTwin.Concrete

/-- Numerals are taken for the nearest double. -/
scoped instance nearestReal : Json.RealReader := ⟨Json.Numeral.nearest?⟩

end DeviceTwin.Concrete
