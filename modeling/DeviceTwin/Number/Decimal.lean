import DeviceTwin.Number.Double
import DeviceTwin.Text.Classes

/-!
# Decimal texts of doubles

`Decimal` is a number given by decimal digits and the place of its point:
`⟨[1, 2, 5], 1⟩` is `1.25`. `Decimal.shortest x` has the fewest digits among
the decimals that are read back as the double `x`, and of those it is the one
nearest to `x`, a tie going to the even last digit. The search tries one digit
more at a time and keeps only a candidate that is read back as `x`
(`shortest?_reads_back`), so the printer needs no law about intervals.

A decimal is laid out positionally (`positional`) or with an exponent
(`scientific`); where one ends and the other begins is up to each format.
-/

namespace DeviceTwin.Number

open DeviceTwin.Text

/-- The number `0.d₁d₂d₃… * 10 ^ point`. -/
structure Decimal where
  digits : List Char
  point : Int
  deriving DecidableEq, Repr

namespace Decimal

/-- The place of the decimal point of a positive fraction: the value is below
`10 ^ place` and, unless it is a power of ten below one, not below a tenth of
that. -/
def pointOf (num den : Nat) : Int :=
  if den ≤ num then (decimalDigits (num / den)).length
  else 1 - ((decimalDigits (den / num)).length : Int)

/-- The whole multiples of `10 ^ grid` next to `num / den`, the nearer one first
and of two equally near ones the even one. -/
def neighbours (num den : Nat) (grid : Int) : List Nat :=
  let n := num * Nat.pow 10 (-grid).toNat
  let d := den * Nat.pow 10 grid.toNat
  let low := n / d
  let r := n % d
  if 2 * r < d then [low, low + 1]
  else if 2 * r = d ∧ low % 2 = 0 then [low, low + 1]
  else [low + 1, low]

/-- A decimal of at most `count` digits that is read back as `x`. -/
def withDigits? (x : Double) (count : Nat) : Option (Nat × Int) :=
  let (num, den) := x.ratio
  let grid := pointOf num den - count
  ((neighbours num den grid).find? fun m => Double.ofDecimal x.negative m grid == some x).map
    fun m => (m, grid)

def firstCount? (x : Double) : Nat → Nat → Option (Nat × Int)
  | 0, _ => none
  | fuel + 1, count =>
    match withDigits? x count with
    | some r => some r
    | none => firstCount? x fuel (count + 1)

/-- The fewest digits that are read back; seventeen are always enough. -/
def shortest? (x : Double) : Option (Nat × Int) :=
  if x.isZero then some (0, 0) else firstCount? x 17 1

theorem withDigits?_reads_back {x : Double} {count m : Nat} {e : Int}
    (h : withDigits? x count = some (m, e)) :
    Double.ofDecimal x.negative m e = some x := by
  unfold withDigits? at h
  simp only [Option.map_eq_some_iff, Prod.mk.injEq] at h
  obtain ⟨k, hk, rfl, rfl⟩ := h
  simpa using List.find?_some hk

theorem shortest?_reads_back {x : Double} {m : Nat} {e : Int}
    (h : shortest? x = some (m, e)) :
    Double.ofDecimal x.negative m e = some x := by
  unfold shortest? at h
  split at h
  · rename_i hz
    cases h
    cases x with
    | mk s p hp =>
      simp only [Double.isZero, beq_iff_eq] at hz
      subst hz
      simp [Double.ofDecimal, Double.zero]
  · suffices ∀ fuel count, firstCount? x fuel count = some (m, e) →
        Double.ofDecimal x.negative m e = some x from this 17 1 h
    intro fuel
    induction fuel with
    | zero => intro count h; simp [firstCount?] at h
    | succ fuel ih =>
      intro count h
      unfold firstCount? at h
      split at h
      · rename_i r hr
        cases h
        exact withDigits?_reads_back hr
      · exact ih _ h

/-- The digits of `m * 10 ^ e` without zeros at the end. -/
def ofScaled (m : Nat) (e : Int) : Decimal :=
  let ds := decimalDigits m
  let kept := (ds.reverse.dropWhile (· == '0')).reverse
  if kept.isEmpty then ⟨['0'], 1⟩ else ⟨kept, (ds.length : Int) + e⟩

def shortest (x : Double) : Decimal :=
  match shortest? x with
  | some (m, e) => ofScaled m e
  | none => ofScaled x.ratio.1 0

/-- The digits before and after the point, with a zero where one side has
none. -/
def positional (d : Decimal) : List Char × List Char :=
  if d.point ≤ 0 then
    (['0'], List.replicate (-d.point).toNat '0' ++ d.digits)
  else
    let n := d.point.toNat
    (d.digits.take n ++ List.replicate (n - d.digits.length) '0',
      if d.digits.length ≤ n then ['0'] else d.digits.drop n)

/-- Every number with its point, as in `1.0` and `0.00001`. -/
def pointed (d : Decimal) : List Char :=
  let (a, b) := d.positional
  a ++ '.' :: b

/-- Whole numbers without a point, as in `1000` and `1.5`. -/
def plain (d : Decimal) : List Char :=
  let (a, b) := d.positional
  if b = ['0'] then a else a ++ '.' :: b

/-- One digit before the point and a signed exponent, as in `1e-7` and
`1.5e+300`. -/
def scientific (d : Decimal) : List Char :=
  let e := d.point - 1
  let mantissa :=
    match d.digits with
    | [] => ['0']
    | [c] => [c]
    | c :: cs => c :: '.' :: cs
  mantissa ++ 'e' :: (if e < 0 then '-' else '+') :: decimalDigits e.natAbs

end Decimal

/-- The sign of a double before the text of its size. -/
def Double.signed (x : Double) (body : List Char) : List Char :=
  if x.negative then '-' :: body else body

end DeviceTwin.Number
