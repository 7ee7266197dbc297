import DeviceTwin.Text.Split
import DeviceTwin.Toml.Value

/-!
# Numbers and words of TOML documents

A number or a word is the longest row of characters that numbers and words consist of,
and its form says what it is: a flag, an integer in base ten, sixteen, eight or two, or
a real number. Underscores may stand between two digits.
-/

namespace DeviceTwin.Toml.Scalar

open DeviceTwin.Text DeviceTwin.Number

/-- A character of a number or a word. -/
def isPart (c : Char) : Bool :=
  isLetter c || isDigit c || c = '_' || c = '+' || c = '-' || c = '.'

/-- The digits of a row in which underscores may stand between two of them. -/
def ungrouped? (isDigit : Char → Bool) (s : List Char) : Option (List Char) :=
  let groups := pieces '_' s
  if groups.all fun g => !g.isEmpty && g.all isDigit then some groups.flatten else none

/-- Decimal digits without a leading zero. -/
def whole? (s : List Char) : Option (List Char) :=
  (ungrouped? isDigit s).filter fun ds => ds.length = 1 || ds.head? ≠ some '0'

def inRange (n : Int) : Option Value :=
  if IsSigned64 n then some (.integer n) else none

def decimal? (negative : Bool) (s : List Char) : Option Value :=
  (whole? s).bind fun ds =>
    inRange (if negative then -(decimalValue ds : Int) else decimalValue ds)

def isBelow (base : Nat) (c : Char) : Bool :=
  match hexValue? c with
  | some v => v < base
  | none => false

/-- An integer in another base, behind the letter of the base. -/
def inBase? (base : Nat) (s : List Char) : Option Value :=
  (ungrouped? (isBelow base) s).bind fun ds =>
    inRange (ds.foldl (fun n c => base * n + (hexValue? c).getD 0) 0 : Nat)

/-- The number before an exponent and the exponent with its letter. -/
def cutExponent (s : List Char) : List Char × List Char :=
  s.span fun c => c ≠ 'e' && c ≠ 'E'

/-- An exponent with its letter, without underscores. -/
def exponent? : List Char → Option (List Char)
  | [] => some []
  | _ :: '-' :: ds => (ungrouped? isDigit ds).map ('e' :: '-' :: ·)
  | _ :: '+' :: ds => (ungrouped? isDigit ds).map ('e' :: ·)
  | _ :: ds => (ungrouped? isDigit ds).map ('e' :: ·)

/-- A real number without its sign: digits, and behind them a fraction, an exponent or
both. Sizes above all doubles are refused, those below all of them are not. -/
def real? (negative : Bool) (s : List Char) : Option Value :=
  let (mantissa, exponent) := cutExponent s
  let parts :=
    match cut '.' mantissa with
    | none => (whole? mantissa).bind fun w => if exponent = [] then none else some w
    | some (a, b) => do return (← whole? a) ++ '.' :: (← ungrouped? isDigit b)
  (parts.bind fun m => (exponent? exponent).bind fun e =>
      Extended.ofText? ((if negative then ['-'] else []) ++ m ++ e)).bind
    fun x => if x = .infinite false then none else some (.real x)

def number? (negative : Bool) (s : List Char) : Option Value :=
  if s = ['i', 'n', 'f'] then some (.real (.infinite negative))
  else if s = ['n', 'a', 'n'] then some (.real .notANumber)
  else
    match decimal? negative s with
    | some v => some v
    | none => real? negative s

/-- What a row of characters means. -/
def ofRow? (s : List Char) : Option Value :=
  if s = ['t', 'r', 'u', 'e'] then some (.flag true)
  else if s = ['f', 'a', 'l', 's', 'e'] then some (.flag false)
  else
    match s with
    | '-' :: s => number? true s
    | '+' :: s => number? false s
    | '0' :: 'x' :: s => inBase? 16 s
    | '0' :: 'o' :: s => inBase? 8 s
    | '0' :: 'b' :: s => inBase? 2 s
    | s => number? false s

/-- The number or word that begins a text. -/
def read? (s : List Char) : Option (Value × List Char) :=
  (ofRow? (s.takeWhile isPart)).map (·, s.dropWhile isPart)

end DeviceTwin.Toml.Scalar
