import DeviceTwin.Number.Decimal
import DeviceTwin.Text.Split

/-!
# Doubles with infinities

Numbers of settings may be infinite or no number at all. `Extended.ofText?` reads
every usual spelling of a number: a sign, digits with or without a point on either
side, an exponent, or one of the words for the values that are not finite. A size
that no finite double is near to is infinite.
-/

namespace DeviceTwin.Number

open DeviceTwin.Text

inductive Extended where
  | finite (x : Double)
  | infinite (negative : Bool)
  | notANumber
  deriving DecidableEq, Repr

namespace Extended

def ofDecimal (negative : Bool) (digits : Nat) (e : Int) : Extended :=
  match Double.ofDecimal negative digits e with
  | some x => finite x
  | none => infinite negative

def isZero : Extended → Bool
  | finite x => x.isZero
  | _ => false

/-- The digits of a number without an exponent, however long they get. -/
def digits (x : Double) : Decimal :=
  if x.isZero then ⟨['0'], 1⟩ else Decimal.shortest x

/-- The text of a number: whole numbers stand without a point. -/
def plain : Extended → String
  | finite x => String.ofList (x.signed (digits x).plain)
  | infinite negative => if negative then "-inf" else "inf"
  | notANumber => "NaN"

/-- The text of a number in which a finite one has a point, so that it is not taken for
an integer. -/
def pointed : Extended → String
  | finite x =>
    let s := plain (finite x)
    if s.toList.contains '.' then s else s ++ ".0"
  | x => x.plain

/-- A sign and the rest of the text. -/
def sign : List Char → Bool × List Char
  | '-' :: s => (true, s)
  | '+' :: s => (false, s)
  | s => (false, s)

def allDigits (s : List Char) : Bool :=
  !s.isEmpty && s.all isDigit

/-- A row of digits with a sign in front of it, or without. -/
def signedDigits? (s : List Char) : Option Int :=
  let (negative, ds) := sign s
  if allDigits ds then
    some (if negative then -(decimalValue ds : Int) else decimalValue ds)
  else
    none

/-- What stands before the exponent, and the exponent. -/
def exponent? : List Char → Option (List Char × Int)
  | [] => some ([], 0)
  | c :: s =>
    if c = 'e' || c = 'E' then (signedDigits? s).map fun e => ([], e)
    else (exponent? s).map fun (m, e) => (c :: m, e)

def ofText? (s : List Char) : Option Extended :=
  let (negative, body) := sign s
  let word := body.map toLower
  if word = ['i', 'n', 'f'] || word = ['i', 'n', 'f', 'i', 'n', 'i', 't', 'y'] then
    some (infinite negative)
  else if word = ['n', 'a', 'n'] then
    some notANumber
  else
    (exponent? body).bind fun (mantissa, e) =>
      let (whole, part) := (cut '.' mantissa).getD (mantissa, [])
      if allDigits (whole ++ part) then
        some (ofDecimal negative (decimalValue (whole ++ part)) (e - part.length))
      else
        none

/-- Reads an integer of 64 bits with a sign. -/
def integer? (s : List Char) : Option Int :=
  (signedDigits? s).filter fun n => decide (IsSigned64 n)

end Extended

end DeviceTwin.Number
