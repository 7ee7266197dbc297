import DeviceTwin.Number.Double
import Mathlib.Algebra.Order.Field.Power
import Mathlib.Data.Int.Log
import Mathlib.Data.Rat.Floor
import Mathlib.Tactic.FieldSimp
import Mathlib.Tactic.Linarith
import Mathlib.Tactic.NormNum
import Mathlib.Tactic.Positivity
import Mathlib.Tactic.Ring

/-!
# Laws of rounding

`Double.ofRatio` works in natural numbers; its laws are stated of the rational number
that the fraction stands for. The exponent of the grid is that of the binade of the
fraction, so the double found depends on the value of the fraction only
(`ofRatio_congr`), and a fraction near a double is rounded to that double
(`ofRatio_of_near`). Near is at most `1 / (2 * 10 ^ 16)` of the size away, which is
less than half of the distance to the next double on either side.
-/

namespace DeviceTwin.Number.Double

/-! ### Powers with an exponent of either sign -/

theorem zpow_eq_div {b : ℚ} (hb : b ≠ 0) (e : ℤ) : b ^ e = b ^ e.toNat / b ^ (-e).toNat := by
  rw [← zpow_natCast, ← zpow_natCast, ← zpow_sub₀ hb, Int.toNat_sub_toNat_neg]

/-- A fraction moved by a power, with both of its parts kept whole. -/
theorem scaled_div {b : ℕ} (hb : b ≠ 0) (num den : ℕ) (e : ℤ) :
    ((num * Nat.pow b (-e).toNat : ℕ) : ℚ) / (den * Nat.pow b e.toNat : ℕ) =
      num / den / (b : ℚ) ^ e := by
  have hb' : (b : ℚ) ≠ 0 := Nat.cast_ne_zero.2 hb
  rw [zpow_eq_div hb' e]
  push_cast [Nat.pow_eq]
  field_simp

theorem log_eq_of_bounds {b : ℕ} (hb : 1 < b) {r : ℚ} {t : ℤ} (hle : (b : ℚ) ^ t ≤ r)
    (hlt : r < (b : ℚ) ^ (t + 1)) : Int.log b r = t := by
  have hpos : (0 : ℚ) < b := by exact_mod_cast zero_lt_one.trans hb
  have hr : 0 < r := (zpow_pos hpos t).trans_le hle
  have hlow := (Int.zpow_le_iff_le_log hb hr).1 hle
  have hhigh := (Int.lt_zpow_iff_log_lt hb hr).1 hlt
  omega

/-! ### The exponent of the grid -/

/-- The binade of a fraction, told by those of its two parts, up to one. -/
theorem log2_bounds {num den : ℕ} (hnum : num ≠ 0) (hden : den ≠ 0) :
    (2 : ℚ) ^ ((num.log2 : ℤ) - den.log2 - 1) ≤ num / den ∧
      (num / den : ℚ) < 2 ^ ((num.log2 : ℤ) - den.log2 + 1) := by
  have hn : ((2 ^ num.log2 : ℕ) : ℚ) ≤ num := Nat.cast_le.2 (Nat.log2_self_le hnum)
  have hn' : (num : ℚ) < (2 ^ (num.log2 + 1) : ℕ) := Nat.cast_lt.2 Nat.lt_log2_self
  have hd : ((2 ^ den.log2 : ℕ) : ℚ) ≤ den := Nat.cast_le.2 (Nat.log2_self_le hden)
  have hd' : (den : ℚ) < (2 ^ (den.log2 + 1) : ℕ) := Nat.cast_lt.2 Nat.lt_log2_self
  push_cast at hn hn' hd hd'
  have hpos : (0 : ℚ) < den := Nat.cast_pos.2 (Nat.pos_of_ne_zero hden)
  have hlow : (num.log2 : ℤ) - den.log2 - 1 = (num.log2 : ℤ) - ((den.log2 + 1 : ℕ) : ℤ) := by
    push_cast
    ring
  have hhigh : (num.log2 : ℤ) - den.log2 + 1 = ((num.log2 + 1 : ℕ) : ℤ) - (den.log2 : ℤ) := by
    push_cast
    ring
  constructor
  · rw [hlow, zpow_sub₀ two_ne_zero, zpow_natCast, zpow_natCast]
    exact div_le_div₀ (by positivity) hn hpos hd'.le
  · rw [hhigh, zpow_sub₀ two_ne_zero, zpow_natCast, zpow_natCast]
    exact div_lt_div₀ hn' hd (by positivity) (by positivity)

theorem gridExponent_eq {num den : ℕ} (hnum : num ≠ 0) (hden : den ≠ 0) :
    gridExponent num den = max (-1074) (Int.log 2 ((num : ℚ) / den) - 52) := by
  obtain ⟨hlow, hhigh⟩ := log2_bounds hnum hden
  have hpos : (0 : ℚ) < den := Nat.cast_pos.2 (Nat.pos_of_ne_zero hden)
  have hscaled := scaled_div two_ne_zero num den ((num.log2 : ℤ) - den.log2)
  have hscaledPos : (0 : ℚ) < (den * Nat.pow 2 ((num.log2 : ℤ) - den.log2).toNat : ℕ) := by
    push_cast [Nat.pow_eq]
    positivity
  have hfits : num * Nat.pow 2 (-((num.log2 : ℤ) - den.log2)).toNat
        < den * Nat.pow 2 ((num.log2 : ℤ) - den.log2).toNat ↔
      (num / den : ℚ) < 2 ^ ((num.log2 : ℤ) - den.log2) := by
    rw [← Nat.cast_lt (α := ℚ), ← div_lt_one hscaledPos, hscaled, Nat.cast_ofNat,
      div_lt_one (by positivity)]
  simp only [gridExponent, sub_add_cancel, decide_eq_true_eq]
  congr 1
  split_ifs with h
  · have hlog : Int.log 2 ((num : ℚ) / den) = (num.log2 : ℤ) - den.log2 - 1 := by
      refine log_eq_of_bounds one_lt_two (by exact_mod_cast hlow) ?_
      rw [sub_add_cancel]
      exact_mod_cast hfits.1 h
    omega
  · have hlog : Int.log 2 ((num : ℚ) / den) = (num.log2 : ℤ) - den.log2 := by
      refine log_eq_of_bounds one_lt_two ?_ (by exact_mod_cast hhigh)
      exact_mod_cast le_of_not_gt (fun hlt => h (hfits.2 hlt))
    omega

/-- Above the finest grid, the exponent is told by the binade of the fraction. -/
theorem gridExponent_of_bounds {num den : ℕ} {e : ℤ} (hnum : num ≠ 0) (hden : den ≠ 0)
    (he : -1074 ≤ e) (hlow : (2 : ℚ) ^ (e + 52) ≤ num / den)
    (hhigh : (num / den : ℚ) < 2 ^ (e + 53)) : gridExponent num den = e := by
  have hlog : Int.log 2 ((num : ℚ) / den) = e + 52 := by
    refine log_eq_of_bounds one_lt_two (by exact_mod_cast hlow) ?_
    rw [add_assoc]
    exact_mod_cast hhigh
  rw [gridExponent_eq hnum hden, hlog]
  omega

theorem gridExponent_of_lt {num den : ℕ} (hnum : num ≠ 0) (hden : den ≠ 0)
    (hhigh : (num / den : ℚ) < 2 ^ (-1074 + 53 : ℤ)) : gridExponent num den = -1074 := by
  have hpos : (0 : ℚ) < num / den :=
    div_pos (Nat.cast_pos.2 (Nat.pos_of_ne_zero hnum)) (Nat.cast_pos.2 (Nat.pos_of_ne_zero hden))
  have hlog : Int.log 2 ((num : ℚ) / den) < -1074 + 53 :=
    (Int.lt_zpow_iff_log_lt one_lt_two hpos).1 (by exact_mod_cast hhigh)
  rw [gridExponent_eq hnum hden]
  omega

/-! ### Rounding to a whole number -/

theorem roundedQuotient_mul_right (num den : ℕ) {k : ℕ} (hk : 0 < k) :
    roundedQuotient (num * k) (den * k) = roundedQuotient num den := by
  have hlt : 2 * (num % den * k) < den * k ↔ 2 * (num % den) < den := by
    rw [← mul_assoc, Nat.mul_lt_mul_right hk]
  have heq : 2 * (num % den * k) = den * k ↔ 2 * (num % den) = den := by
    rw [← mul_assoc, Nat.mul_left_inj hk.ne']
  simp only [roundedQuotient, Nat.mul_div_mul_right num den hk, Nat.mul_mod_mul_right, hlt, heq]

/-- Equal fractions are rounded alike. -/
theorem roundedQuotient_congr {num den num' den' : ℕ} (hden : 0 < den) (hden' : 0 < den')
    (h : num * den' = num' * den) : roundedQuotient num den = roundedQuotient num' den' := by
  rw [← roundedQuotient_mul_right num den hden', ← roundedQuotient_mul_right num' den' hden, h,
    mul_comm den' den]

/-- A fraction less than a half away from a whole number is rounded to it. -/
theorem roundedQuotient_of_near {num den s : ℕ} (hden : 0 < den)
    (h : |(num : ℚ) / den - s| < 1 / 2) : roundedQuotient num den = s := by
  have hpos : (0 : ℚ) < den := Nat.cast_pos.2 hden
  have hscaled : |(num : ℚ) / den - s| * den = |(num : ℚ) - s * den| := by
    rw [← abs_of_pos hpos, ← abs_mul, abs_of_pos hpos, sub_mul, div_mul_cancel₀ _ hpos.ne']
  have hnear : |(num : ℚ) - s * den| < 1 / 2 * den := by
    rw [← hscaled]
    exact mul_lt_mul_of_pos_right h hpos
  obtain ⟨hlow, hhigh⟩ := abs_lt.1 hnear
  have hlow' : 2 * (s * den) < 2 * num + den := by
    have : 2 * ((s : ℚ) * den) < 2 * num + den := by linarith
    exact_mod_cast this
  have hhigh' : 2 * num < 2 * (s * den) + den := by
    have : 2 * (num : ℚ) < 2 * (s * den) + den := by linarith
    exact_mod_cast this
  have hdiv : num / den * den + num % den = num := Nat.div_add_mod' num den
  have hmod : num % den < den := Nat.mod_lt num hden
  have hapart : ∀ {a b : ℕ}, a < b → a * den + den ≤ b * den := by
    intro a b hab
    rw [← Nat.succ_mul]
    exact Nat.mul_le_mul_right den hab
  have hbelow := hapart (a := num / den) (b := s)
  have hbelow' := hapart (a := num / den + 1) (b := s)
  have habove := hapart (a := s) (b := num / den)
  rw [Nat.succ_mul] at hbelow'
  rw [roundedQuotient]
  generalize num / den = q at *
  generalize num % den = r at *
  rcases lt_trichotomy q s with hlt | rfl | hgt
  · have hle := hbelow hlt
    rw [if_neg (by omega), if_neg (by omega)]
    omega
  · rw [if_pos (by omega)]
  · have hle := habove hgt
    omega

/-! ### The double nearest to a fraction -/

theorem ofRatio_zero (negative : Bool) (den : ℕ) :
    ofRatio negative 0 den = some (zero negative) :=
  if_pos rfl

theorem ofRatio_of_ne_zero {num den : ℕ} (negative : Bool) (hnum : num ≠ 0) :
    ofRatio negative num den =
      let e := gridExponent num den
      let m := roundedQuotient (num * Nat.pow 2 (-e).toNat) (den * Nat.pow 2 e.toNat)
      if h : (e + 1074).toNat * binade + m < doubleCount then
        some ⟨negative, (e + 1074).toNat * binade + m, h⟩
      else none := by
  exact if_neg hnum

/-- Equal fractions are rounded to the same double. -/
theorem ofRatio_congr (negative : Bool) {num den num' den' : ℕ} (hden : den ≠ 0)
    (hden' : den' ≠ 0) (h : num * den' = num' * den) :
    ofRatio negative num den = ofRatio negative num' den' := by
  rcases Nat.eq_zero_or_pos num with rfl | hnum
  · have hzero : num' = 0 := by
      rw [zero_mul] at h
      exact (Nat.mul_eq_zero.1 h.symm).resolve_right hden
    rw [hzero, ofRatio_zero, ofRatio_zero]
  · have hnum' : num' ≠ 0 := by
      rintro rfl
      rw [zero_mul] at h
      exact (Nat.mul_pos hnum (Nat.pos_of_ne_zero hden')).ne' h
    have hvalue : (num : ℚ) / den = num' / den' := by
      rw [div_eq_div_iff (Nat.cast_ne_zero.2 hden) (Nat.cast_ne_zero.2 hden')]
      exact_mod_cast h
    have hgrid : gridExponent num den = gridExponent num' den' := by
      rw [gridExponent_eq hnum.ne' hden, gridExponent_eq hnum' hden', hvalue]
    rw [ofRatio_of_ne_zero negative hnum.ne', ofRatio_of_ne_zero negative hnum', hgrid]
    have hround : ∀ e : ℤ,
        roundedQuotient (num * Nat.pow 2 (-e).toNat) (den * Nat.pow 2 e.toNat) =
          roundedQuotient (num' * Nat.pow 2 (-e).toNat) (den' * Nat.pow 2 e.toNat) := by
      intro e
      have hpow : ∀ k, 0 < Nat.pow 2 k := fun k => Nat.pow_pos two_pos
      refine roundedQuotient_congr (Nat.mul_pos (Nat.pos_of_ne_zero hden) (hpow _))
        (Nat.mul_pos (Nat.pos_of_ne_zero hden') (hpow _)) ?_
      rw [mul_mul_mul_comm, h, mul_mul_mul_comm]
    simp only [hround]

/-- The size of a double. -/
def size (x : Double) : ℚ :=
  x.significand * 2 ^ x.exponent

theorem size_eq_ratio (x : Double) : x.size = (x.ratio.1 : ℚ) / x.ratio.2 := by
  rw [size, zpow_eq_div two_ne_zero, ratio, ← mul_div_assoc]
  push_cast [Nat.pow_eq]
  rfl

theorem exponent_ge (x : Double) : -1074 ≤ x.exponent := by
  rw [exponent]
  split_ifs with h
  · exact le_rfl
  · have hone : 1 ≤ x.place / binade := (Nat.one_le_div_iff (by decide)).2 (le_of_not_gt h)
    omega

theorem significand_lt (x : Double) : x.significand < 2 ^ 53 := by
  have hmod : x.place % binade < binade := Nat.mod_lt _ (by decide)
  rw [significand]
  split_ifs <;> simp only [binade] at * <;> omega

/-- Only on the finest grid does a significand have fewer than fifty-three bits. -/
theorem significand_ge {x : Double} (h : x.exponent ≠ -1074) : 2 ^ 52 ≤ x.significand := by
  have hplace : ¬ x.place < binade := fun hlt => h (if_pos hlt)
  rw [significand, if_neg hplace]
  exact Nat.le_add_left binade _

theorem significand_ne_zero {x : Double} (h : x.place ≠ 0) : x.significand ≠ 0 := by
  rw [significand]
  split_ifs
  · exact h
  · exact (Nat.add_pos_right _ (by decide)).ne'

/-- The place of a double from the exponent of its grid and its significand. -/
theorem place_eq (x : Double) :
    (x.exponent + 1074).toNat * binade + x.significand = x.place := by
  rw [exponent, significand]
  split_ifs with h
  · simp
  · have hdiv := Nat.div_add_mod' x.place binade
    have hone : 1 ≤ x.place / binade := (Nat.one_le_div_iff (by decide)).2 (le_of_not_gt h)
    have hexp : ((x.place / binade : ℕ) - 1075 + 1074 : ℤ).toNat = x.place / binade - 1 := by
      omega
    rw [hexp, Nat.sub_mul, one_mul]
    have hle : binade ≤ x.place / binade * binade := Nat.le_mul_of_pos_left _ hone
    omega

/-- What `ofRatio` gives on a grid of which the fraction is nearest to one point. -/
theorem ofRatio_of_grid {x : Double} {num den s : ℕ} {e : ℤ} (hnum : num ≠ 0) (hden : den ≠ 0)
    (hgrid : gridExponent num den = e) (hnear : |(num : ℚ) / den / 2 ^ e - s| < 1 / 2)
    (hplace : (e + 1074).toNat * binade + s = x.place) :
    ofRatio x.negative num den = some x := by
  have hpos : 0 < den * Nat.pow 2 e.toNat :=
    Nat.mul_pos (Nat.pos_of_ne_zero hden) (Nat.pow_pos two_pos)
  have hround : roundedQuotient (num * Nat.pow 2 (-e).toNat) (den * Nat.pow 2 e.toNat) = s := by
    apply roundedQuotient_of_near hpos
    rw [scaled_div two_ne_zero]
    exact_mod_cast hnear
  rw [ofRatio_of_ne_zero _ hnum]
  simp only [hgrid, hround, hplace, x.finite, dif_pos]

/-- In units of the grid of a double, a fraction near the double is near its significand. -/
theorem near_significand {x : Double} {v : ℚ} (h : |v - x.size| * (2 * 10 ^ 16) ≤ x.size) :
    |v / 2 ^ x.exponent - x.significand| * (2 * 10 ^ 16) ≤ x.significand := by
  have hunit : (0 : ℚ) < 2 ^ x.exponent := by positivity
  have hvalue : v = v / 2 ^ x.exponent * 2 ^ x.exponent := (div_mul_cancel₀ _ hunit.ne').symm
  rw [hvalue, size, ← sub_mul, abs_mul, abs_of_pos hunit, mul_right_comm] at h
  exact le_of_mul_le_mul_right h hunit

/-- Below the first double of a binade the grid is finer by one bit, and a fraction that is
near that double from below is nearest to the end of the finer grid. -/
theorem ofRatio_of_near_below {x : Double} {num den : ℕ} (hnum : num ≠ 0) (hden : den ≠ 0)
    (hexp : x.exponent ≠ -1074) (hbelow : (num / den : ℚ) / 2 ^ x.exponent < 2 ^ 52)
    (hnear : |(num / den : ℚ) / 2 ^ x.exponent - x.significand| * (2 * 10 ^ 16) ≤
      x.significand) :
    ofRatio x.negative num den = some x := by
  have hunit : (0 : ℚ) < 2 ^ x.exponent := by positivity
  have hge := x.exponent_ge
  have hs53 : (x.significand : ℚ) + 1 ≤ 2 ^ 53 := by exact_mod_cast x.significand_lt
  have hs52 : (2 : ℚ) ^ 52 ≤ x.significand := by exact_mod_cast significand_ge hexp
  obtain ⟨y, hy⟩ : ∃ y, y = (num : ℚ) / den / 2 ^ x.exponent := ⟨_, rfl⟩
  have hvalue : (num : ℚ) / den = y * 2 ^ x.exponent := by
    rw [hy, div_mul_cancel₀ _ hunit.ne']
  rw [← hy] at hbelow hnear
  obtain ⟨hlow, hhigh⟩ := abs_le.1 ((le_div_iff₀ (by norm_num)).2 hnear)
  have hfirst : x.significand = 2 ^ 52 := by
    have hlt : (x.significand : ℚ) < (2 ^ 52 : ℕ) + 1 := by
      push_cast
      linarith
    have hle : x.significand < 2 ^ 52 + 1 := by exact_mod_cast hlt
    exact le_antisymm (Nat.lt_succ_iff.1 hle) (significand_ge hexp)
  have hgrid : gridExponent num den = x.exponent - 1 := by
    refine gridExponent_of_bounds hnum hden (by omega) ?_ ?_
    · have hy51 : (2 : ℚ) ^ 51 ≤ y := by linarith
      rw [hvalue, sub_add, zpow_sub₀ two_ne_zero, div_eq_mul_inv, mul_comm, ← zpow_neg]
      exact mul_le_mul_of_nonneg_right hy51 hunit.le
    · rw [hvalue, sub_add, zpow_sub₀ two_ne_zero, div_eq_mul_inv, mul_comm y, ← zpow_neg]
      exact mul_lt_mul_of_pos_left hbelow hunit
  refine ofRatio_of_grid hnum hden hgrid (s := 2 ^ 53) ?_ ?_
  · have hdouble : (num : ℚ) / den / 2 ^ (x.exponent - 1) = 2 * y := by
      rw [hvalue, zpow_sub_one₀ two_ne_zero]
      field_simp
    rw [hfirst] at hlow hhigh
    rw [hdouble, abs_lt]
    push_cast at hlow hhigh ⊢
    constructor <;> linarith
  · have hplace := x.place_eq
    have hcarry : (2 : ℕ) ^ 53 = binade + 2 ^ 52 := by decide
    have hsucc : (x.exponent - 1 + 1074).toNat.succ = (x.exponent + 1074).toNat := by omega
    rw [← hplace, hfirst, hcarry, ← Nat.add_assoc, ← Nat.succ_mul, hsucc]

/-- A fraction less than `1 / (2 * 10 ^ 16)` of the size away from a double is rounded to
that double. -/
theorem ofRatio_of_near {x : Double} {num den : ℕ} (hx : x.place ≠ 0) (hden : den ≠ 0)
    (hnear : |(num : ℚ) / den - x.size| * (2 * 10 ^ 16) ≤ x.size) :
    ofRatio x.negative num den = some x := by
  have hunit : (0 : ℚ) < 2 ^ x.exponent := by positivity
  have hs : (1 : ℚ) ≤ x.significand := by
    exact_mod_cast Nat.one_le_iff_ne_zero.2 (significand_ne_zero hx)
  have hs53 : (x.significand : ℚ) + 1 ≤ 2 ^ 53 := by exact_mod_cast x.significand_lt
  have hdist := near_significand hnear
  have hhalf : |(num : ℚ) / den / 2 ^ x.exponent - x.significand| < 1 / 2 := by linarith
  obtain ⟨hlow, hhigh⟩ := abs_lt.1 hhalf
  have hnum : num ≠ 0 := by
    rintro rfl
    rw [Nat.cast_zero, zero_div, zero_div] at hlow
    linarith
  have hupper : (num : ℚ) / den < 2 ^ (x.exponent + 53) := by
    have hlt : (num : ℚ) / den / 2 ^ x.exponent < 2 ^ 53 := by linarith
    rw [zpow_add₀ two_ne_zero, mul_comm]
    exact (div_lt_iff₀ hunit).1 hlt
  rcases eq_or_ne x.exponent (-1074) with hmin | hmin
  · rw [hmin] at hupper
    have hgrid := gridExponent_of_lt hnum hden hupper
    exact ofRatio_of_grid hnum hden (hgrid.trans hmin.symm) hhalf x.place_eq
  · rcases le_or_gt (2 ^ 52) ((num : ℚ) / den / 2 ^ x.exponent) with hge | hbelow
    · have hlower : (2 : ℚ) ^ (x.exponent + 52) ≤ num / den := by
        rw [zpow_add₀ two_ne_zero, mul_comm]
        exact (le_div_iff₀ hunit).1 hge
      have hgrid := gridExponent_of_bounds hnum hden x.exponent_ge hlower hupper
      exact ofRatio_of_grid hnum hden hgrid hhalf x.place_eq
    · exact ofRatio_of_near_below hnum hden hmin hbelow hdist

end DeviceTwin.Number.Double
