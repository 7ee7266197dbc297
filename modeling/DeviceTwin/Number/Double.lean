/-!
# Numbers of a machine

A finite double is a sign and a place in the list of the nonnegative finite
doubles in rising order. The place is the bit pattern of the value without its
sign bit, so the next larger double is the next place and equality is equality
of bits: `0.0` and `-0.0` are two values, and there is no infinity and no NaN.

`Double.ofRatio` rounds an exact fraction to the nearest double, ties to the
even place, in natural numbers only.

The bounds of the integers that have a place in a machine word stand in front. They are
written out, so that a comparison with one is a computation and linear arithmetic sees
through them.
-/

namespace DeviceTwin.Number

/-! ### Integers of machine words -/

/-- An integer of 64 bits with a sign. -/
abbrev IsSigned64 (n : Int) : Prop :=
  -9223372036854775808 ≤ n ∧ n < 9223372036854775808

/-- An integer of 64 bits, signed or unsigned. -/
abbrev IsWide64 (n : Int) : Prop :=
  -9223372036854775808 ≤ n ∧ n < 18446744073709551616

/-- The number of values of a word of 64 bits. -/
abbrev count64 : Nat := 18446744073709551616

/-- The number of values of a word of 32 bits. -/
abbrev count32 : Nat := 4294967296

/-- The number of values of a word of 31 bits. -/
abbrev count31 : Nat := 2147483648

/-! ### Doubles -/

/-- The number of doubles from a power of two to below the next one. -/
def binade : Nat := 4503599627370496

/-- The number of finite nonnegative doubles. -/
def doubleCount : Nat := 2047 * binade

structure Double where
  negative : Bool
  place : Nat
  finite : place < doubleCount
  deriving DecidableEq, Repr

namespace Double

def zero (negative : Bool) : Double :=
  ⟨negative, 0, by decide⟩

instance : Inhabited Double := ⟨zero false⟩

def isZero (x : Double) : Bool :=
  x.place == 0

/-- The whole number `m` in the size `m * 2 ^ e` of a double. -/
def significand (x : Double) : Nat :=
  if x.place < binade then x.place else x.place % binade + binade

/-- The exponent `e` in the size `m * 2 ^ e` of a double. -/
def exponent (x : Double) : Int :=
  if x.place < binade then -1074 else (x.place / binade : Nat) - 1075

/-- The size of a double as a fraction of whole numbers. -/
def ratio (x : Double) : Nat × Nat :=
  (x.significand * Nat.pow 2 x.exponent.toNat, Nat.pow 2 (-x.exponent).toNat)

/-- The quotient of two whole numbers rounded to the nearest one, a tie to the
even one. -/
def roundedQuotient (num den : Nat) : Nat :=
  let q := num / den
  let r := num % den
  if 2 * r < den then q
  else if 2 * r = den then q + q % 2
  else q + 1

/-- The exponent of the grid of doubles that a fraction is rounded to: the value
lies below `2 ^ (e + 53)`, and the grid is never finer than `2 ^ -1074`. -/
def gridExponent (num den : Nat) : Int :=
  let estimate : Int := (Nat.log2 num : Int) - (Nat.log2 den : Int) - 53
  let fits : Bool :=
    num * Nat.pow 2 (-(estimate + 53)).toNat < den * Nat.pow 2 (estimate + 53).toNat
  max (-1074) (if fits then estimate else estimate + 1)

/-- The double nearest to `num / den`; `none` if it would not be finite. -/
def ofRatio (negative : Bool) (num den : Nat) : Option Double :=
  if num = 0 then some (zero negative) else
  let e := gridExponent num den
  let m := roundedQuotient (num * Nat.pow 2 (-e).toNat) (den * Nat.pow 2 e.toNat)
  let place := (e + 1074).toNat * binade + m
  if h : place < doubleCount then some ⟨negative, place, h⟩ else none

/-- The double nearest to `digits * 10 ^ e`; `none` if it would not be finite.
Sizes far outside the range are decided by their length alone. -/
def ofDecimal (negative : Bool) (digits : Nat) (e : Int) : Option Double :=
  if digits = 0 then
    some (zero negative)
  else
    let length : Int := (Nat.toDigits 10 digits).length
    if length + e > 400 then none
    else if length + e < -400 then some (zero negative)
    else ofRatio negative (digits * Nat.pow 10 e.toNat) (Nat.pow 10 (-e).toNat)

/-- The double nearest to a whole number. -/
def ofInt? (n : Int) : Option Double :=
  ofDecimal (n < 0) n.natAbs 0

end Double

end DeviceTwin.Number
