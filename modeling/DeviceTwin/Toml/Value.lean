import DeviceTwin.Number.Extended

/-!
# Values of TOML documents

A document is a table: texts, numbers, days and times, lists and further tables under
keys.

A value may be a day, a time of the day, or both, and a day with a time may say how far
its clock is from the one of Greenwich. Whether a day exists is a matter of the month and
the year. A time is given to the second or to a fraction of one, of which nine digits
count.
-/

namespace DeviceTwin.Toml

open DeviceTwin.Number DeviceTwin.Text

/-! ### Days and times -/

structure Day where
  year : Nat
  month : Nat
  day : Nat
  deriving DecidableEq, Repr

/-- A time of the day; the fraction of the second has no zeros at its end. -/
structure Clock where
  hour : Nat
  minute : Nat
  second : Nat
  fraction : List Char
  deriving DecidableEq, Repr

/-- The distance of a clock, in minutes if it is told in hours and minutes. -/
inductive Offset where
  | none
  | zero
  | minutes (n : Int)
  deriving DecidableEq, Repr

inductive Moment where
  | date (d : Day)
  | time (t : Clock)
  | dateTime (d : Day) (t : Clock) (offset : Offset)
  deriving DecidableEq, Repr

/-- The number of days in a month. -/
def daysIn (year month : Nat) : Nat :=
  if month = 2 then
    if year % 4 = 0 ∧ (year % 100 ≠ 0 ∨ year % 400 = 0) then 29 else 28
  else if month = 4 ∨ month = 6 ∨ month = 9 ∨ month = 11 then 30
  else 31

namespace Moment

/-- A number of so many digits between two bounds, and the rest. -/
def number? (digits low high : Nat) (s : List Char) : Option (Nat × List Char) :=
  let ds := s.take digits
  let n := decimalValue ds
  if ds.length = digits ∧ ds.all isDigit ∧ low ≤ n ∧ n ≤ high then some (n, s.drop digits)
  else none

/-- The rest behind a character. -/
def behind? (c : Char) : List Char → Option (List Char)
  | [] => none
  | d :: s => if c = d then some s else none

def readDay? (s : List Char) : Option (Day × List Char) := do
  let (year, s) ← number? 4 0 9999 s
  let (month, s) ← number? 2 1 12 (← behind? '-' s)
  let (day, s) ← number? 2 1 (daysIn year month) (← behind? '-' s)
  return (⟨year, month, day⟩, s)

/-- The fraction of a second, if there is one. -/
def readFraction (s : List Char) : List Char × List Char :=
  match s with
  | '.' :: r =>
    let ds := r.takeWhile isDigit
    if ds.isEmpty then ([], s)
    else (((ds.take 9).reverse.dropWhile (· = '0')).reverse, r.dropWhile isDigit)
  | _ => ([], s)

def readClock? (s : List Char) : Option (Clock × List Char) := do
  let (hour, s) ← number? 2 0 23 s
  let (minute, s) ← number? 2 0 59 (← behind? ':' s)
  let (second, s) ← number? 2 0 60 (← behind? ':' s)
  let (fraction, s) := readFraction s
  return (⟨hour, minute, second, fraction⟩, s)

def readOffset? (s : List Char) : Option (Offset × List Char) :=
  let told (sign : Int) (s : List Char) : Option (Offset × List Char) := do
    let (hours, s) ← number? 2 0 23 s
    let (minutes, s) ← number? 2 0 59 (← behind? ':' s)
    return (.minutes (sign * (60 * hours + minutes : Nat)), s)
  match s with
  | 'Z' :: s => some (.zero, s)
  | 'z' :: s => some (.zero, s)
  | '+' :: s => told 1 s
  | '-' :: s => told (-1) s
  | s => some (.none, s)

/-- What may stand between a day and a time. -/
def isBetween (c : Char) : Bool :=
  c = 'T' || c = 't' || c = ' '

/-- The time behind a day, if there is one, and the distance of its clock. -/
def readBehind? (d : Day) (s : List Char) : Option (Moment × List Char) :=
  match s with
  | [] => some (date d, [])
  | c :: r =>
    match (if isBetween c then readClock? r else none) with
    | none => some (date d, s)
    | some (t, r) => (readOffset? r).map fun (o, r) => (dateTime d t o, r)

/-- The day or time that begins a text. -/
def read? (s : List Char) : Option (Moment × List Char) :=
  match readDay? s with
  | some (d, r) => readBehind? d r
  | none => (readClock? s).map fun (t, r) => (time t, r)

/-- A number in at least so many digits. -/
def padded (width n : Nat) : List Char :=
  (decimalDigits n).leftpad width '0'

end Moment

def Day.text (d : Day) : List Char :=
  Moment.padded 4 d.year ++ '-' :: Moment.padded 2 d.month ++ '-' :: Moment.padded 2 d.day

def Clock.text (t : Clock) : List Char :=
  Moment.padded 2 t.hour ++ ':' :: Moment.padded 2 t.minute ++ ':' :: Moment.padded 2 t.second ++
    if t.fraction.isEmpty then [] else '.' :: t.fraction

def Offset.text : Offset → List Char
  | none => []
  | zero => ['Z']
  | minutes n =>
    (if n < 0 then '-' else '+') ::
      Moment.padded 2 (n.natAbs / 60) ++ ':' :: Moment.padded 2 (n.natAbs % 60)

/-- A day with a time has the letter between them that the standard prefers. -/
def Moment.text : Moment → List Char
  | date d => d.text
  | time t => t.text
  | dateTime d t offset => d.text ++ 'T' :: t.text ++ offset.text

/-! ### Values -/

inductive Value where
  | flag (b : Bool)
  | integer (n : Int)
  | real (x : Extended)
  | text (s : String)
  | moment (m : Moment)
  | list (items : List Value)
  | table (entries : List (String × Value))

instance : Inhabited Value := ⟨.table []⟩

end DeviceTwin.Toml
