import DeviceTwin.Number.Decimal
import DeviceTwin.Proofs.Number.Rounding
import DeviceTwin.Proofs.Text.Classes
import Mathlib.Data.Nat.Cast.Order.Field

/-!
# Decimals that are read back

Seventeen digits tell a double from its neighbours: a decimal of that many digits can be
chosen within `1 / (2 * 10 ^ 16)` of the size of the double, and so near it is rounded
back to it. The search of `Decimal.shortest?` therefore finds a decimal for every
double, and the digits it keeps spell that double (`shortest_spells`). Laying a decimal
out with a point or with an exponent changes its digits by zeros at either end only.
-/

namespace DeviceTwin.Number

open DeviceTwin.Text

namespace Double

/-! ### The range of the doubles -/

theorem exponent_le (x : Double) : x.exponent ≤ 971 := by
  have hfinite := x.finite
  have hplace : x.place / binade ≤ 2046 := by
    rw [doubleCount] at hfinite
    exact Nat.lt_succ_iff.1 ((Nat.div_lt_iff_lt_mul (by decide)).2 hfinite)
  rw [exponent]
  split_ifs <;> omega

theorem size_lt (x : Double) : x.size < 2 ^ (1024 : ℤ) := by
  have hs : (x.significand : ℚ) < 2 ^ 53 := by exact_mod_cast x.significand_lt
  have he : (2 : ℚ) ^ x.exponent ≤ 2 ^ (971 : ℤ) :=
    zpow_le_zpow_right₀ one_le_two x.exponent_le
  calc x.size < 2 ^ 53 * 2 ^ x.exponent := mul_lt_mul_of_pos_right hs (by positivity)
    _ ≤ 2 ^ 53 * 2 ^ (971 : ℤ) := mul_le_mul_of_nonneg_left he (by positivity)
    _ = 2 ^ (1024 : ℤ) := by rw [← zpow_natCast, ← zpow_add₀ two_ne_zero]; rfl

theorem size_ge {x : Double} (hx : x.place ≠ 0) : 2 ^ (-1074 : ℤ) ≤ x.size := by
  have hs : (1 : ℚ) ≤ x.significand := by
    exact_mod_cast Nat.one_le_iff_ne_zero.2 (significand_ne_zero hx)
  have he : (2 : ℚ) ^ (-1074 : ℤ) ≤ 2 ^ x.exponent :=
    zpow_le_zpow_right₀ one_le_two x.exponent_ge
  calc (2 : ℚ) ^ (-1074 : ℤ) ≤ 1 * 2 ^ x.exponent := by rwa [one_mul]
    _ ≤ x.size := mul_le_mul_of_nonneg_right hs (by positivity)

theorem two_zpow_le {k : ℤ} (hk : 0 ≤ k) : (2 : ℚ) ^ (3 * k) ≤ 10 ^ k := by
  rw [zpow_mul]
  exact zpow_le_zpow_left₀ hk (by positivity) (by norm_num)

/-! ### Rounding of decimals -/

theorem decimalDigits_bounds {n : ℕ} (hn : n ≠ 0) :
    (10 : ℚ) ^ (((decimalDigits n).length : ℤ) - 1) ≤ n ∧
      (n : ℚ) < 10 ^ ((decimalDigits n).length : ℤ) := by
  have hpos : 0 < (decimalDigits n).length := List.length_pos_of_ne_nil (decimalDigits_ne_nil n)
  have hhigh : n < 10 ^ (decimalDigits n).length := (length_decimalDigits_le_iff hpos).1 le_rfl
  constructor
  · obtain ⟨k, hk⟩ : ∃ k, (decimalDigits n).length = k + 1 := Nat.exists_eq_succ_of_ne_zero hpos.ne'
    have hlow : 10 ^ k ≤ n := by
      rcases Nat.eq_zero_or_pos k with rfl | hkpos
      · exact Nat.one_le_iff_ne_zero.2 hn
      · refine le_of_not_gt fun hlt => ?_
        have hle := (length_decimalDigits_le_iff hkpos).2 hlt
        omega
    rw [hk, Nat.cast_succ, add_sub_cancel_right, zpow_natCast]
    exact_mod_cast hlow
  · rw [zpow_natCast]
    exact_mod_cast hhigh

theorem ofDecimal_zero (negative : Bool) (e : ℤ) :
    ofDecimal negative 0 e = some (zero negative) :=
  if_pos rfl

theorem ofDecimal_eq_ofRatio {n : ℕ} {e : ℤ} (negative : Bool) (hn : n ≠ 0)
    (hhigh : (decimalDigits n).length + e ≤ 400) (hlow : -400 ≤ (decimalDigits n).length + e) :
    ofDecimal negative n e =
      ofRatio negative (n * Nat.pow 10 e.toNat) (Nat.pow 10 (-e).toNat) := by
  rw [decimalDigits] at hhigh hlow
  rw [ofDecimal, if_neg hn]
  simp only
  rw [if_neg (not_lt.2 hhigh), if_neg (not_lt.2 hlow)]

/-- Zeros at the end of the digits are worth a power of ten. -/
theorem ofDecimal_mul_pow (negative : Bool) (n k : ℕ) (e : ℤ) :
    ofDecimal negative (n * 10 ^ k) e = ofDecimal negative n (e + k) := by
  rcases Nat.eq_zero_or_pos n with rfl | hn
  · rw [zero_mul, ofDecimal_zero, ofDecimal_zero]
  · have hpow : ∀ i, 0 < 10 ^ i := fun i => Nat.pow_pos (by decide)
    have hlen := length_decimalDigits_mul_pow hn k
    rw [decimalDigits, decimalDigits] at hlen
    have hratio : ofRatio negative (n * 10 ^ k * Nat.pow 10 e.toNat) (Nat.pow 10 (-e).toNat) =
        ofRatio negative (n * Nat.pow 10 (e + k).toNat) (Nat.pow 10 (-(e + k)).toNat) := by
      refine ofRatio_congr negative (hpow _).ne' (hpow _).ne' ?_
      simp only [Nat.pow_eq, mul_assoc, ← pow_add]
      congr 2
      omega
    rw [ofDecimal, ofDecimal, if_neg (Nat.mul_pos hn (hpow k)).ne', if_neg hn.ne']
    simp only [hlen, hratio, Nat.cast_add, add_assoc, add_comm (k : ℤ) e]

/-- A decimal of a size that doubles have is not refused for its length. -/
theorem length_bounds {n : ℕ} {e : ℤ} (hn : n ≠ 0) (hlow : (2 : ℚ) ^ (-1075 : ℤ) ≤ n * 10 ^ e)
    (hhigh : (n : ℚ) * 10 ^ e < 2 ^ (1025 : ℤ)) :
    (decimalDigits n).length + e ≤ 400 ∧ -400 ≤ (decimalDigits n).length + e := by
  obtain ⟨hbelow, habove⟩ := decimalDigits_bounds hn
  have hunit : (0 : ℚ) < 10 ^ e := by positivity
  have hupper : ((decimalDigits n).length : ℤ) - 1 + e < 400 := by
    refine (zpow_lt_zpow_iff_right₀ (show (1 : ℚ) < 10 by norm_num)).1 ?_
    rw [zpow_add₀ (by norm_num)]
    calc (10 : ℚ) ^ (((decimalDigits n).length : ℤ) - 1) * 10 ^ e ≤ n * 10 ^ e :=
          mul_le_mul_of_nonneg_right hbelow hunit.le
      _ < 2 ^ (1025 : ℤ) := hhigh
      _ ≤ 2 ^ (1200 : ℤ) := zpow_le_zpow_right₀ one_le_two (by decide)
      _ ≤ 10 ^ (400 : ℤ) := two_zpow_le (by decide)
  have hlower : -400 < ((decimalDigits n).length : ℤ) + e := by
    refine (zpow_lt_zpow_iff_right₀ (show (1 : ℚ) < 10 by norm_num)).1 ?_
    rw [zpow_add₀ (by norm_num)]
    calc (10 : ℚ) ^ (-400 : ℤ) ≤ 2 ^ (-1200 : ℤ) := by
          rw [zpow_neg, zpow_neg]
          exact inv_anti₀ (by positivity) (two_zpow_le (by decide))
      _ ≤ 2 ^ (-1075 : ℤ) := zpow_le_zpow_right₀ one_le_two (by decide)
      _ ≤ n * 10 ^ e := hlow
      _ < 10 ^ ((decimalDigits n).length : ℤ) * 10 ^ e := mul_lt_mul_of_pos_right habove hunit
  omega

/-- A decimal near a double is read as that double. -/
theorem ofDecimal_of_near {x : Double} {n : ℕ} {e : ℤ} (hx : x.place ≠ 0)
    (hnear : |(n : ℚ) * 10 ^ e - x.size| * (2 * 10 ^ 16) ≤ x.size) :
    ofDecimal x.negative n e = some x := by
  have hge := size_ge hx
  have hsize : 0 < x.size := lt_of_lt_of_le (by positivity) hge
  have hhalf : |(n : ℚ) * 10 ^ e - x.size| ≤ x.size / 2 := by linarith
  obtain ⟨hbelow, habove⟩ := abs_le.1 hhalf
  have hn : n ≠ 0 := by
    rintro rfl
    rw [Nat.cast_zero, zero_mul] at hbelow
    linarith
  have hlow : (2 : ℚ) ^ (-1075 : ℤ) ≤ n * 10 ^ e := by
    calc (2 : ℚ) ^ (-1075 : ℤ) = 2 ^ (-1074 : ℤ) / 2 := zpow_sub_one₀ two_ne_zero (-1074)
      _ ≤ n * 10 ^ e := by linarith
  have hhigh : (n : ℚ) * 10 ^ e < 2 ^ (1025 : ℤ) := by
    calc (n : ℚ) * 10 ^ e ≤ x.size * 2 := by linarith
      _ < 2 ^ (1024 : ℤ) * 2 := mul_lt_mul_of_pos_right x.size_lt two_pos
      _ = 2 ^ (1025 : ℤ) := (zpow_add_one₀ two_ne_zero 1024).symm
  obtain ⟨hupper, hlower⟩ := length_bounds hn hlow hhigh
  have hvalue : ((n * Nat.pow 10 e.toNat : ℕ) : ℚ) / (Nat.pow 10 (-e).toNat : ℕ) = n * 10 ^ e := by
    rw [zpow_eq_div (by norm_num) e, ← mul_div_assoc]
    push_cast [Nat.pow_eq]
    rfl
  rw [ofDecimal_eq_ofRatio _ hn hupper hlower]
  refine ofRatio_of_near hx (Nat.pow_pos (by decide)).ne' ?_
  rw [hvalue]
  exact hnear

end Double

namespace Decimal

/-! ### Seventeen digits are enough -/

theorem pow_pointOf_le {num den : ℕ} (hnum : num ≠ 0) (hden : den ≠ 0) :
    (10 : ℚ) ^ (pointOf num den - 1) ≤ (num : ℚ) / den := by
  rw [pointOf]
  split_ifs with hle
  · have hq : num / den ≠ 0 := (Nat.div_pos hle (Nat.pos_of_ne_zero hden)).ne'
    exact (Double.decimalDigits_bounds hq).1.trans Nat.cast_div_le
  · have hq : den / num ≠ 0 :=
      (Nat.div_pos (le_of_not_ge hle) (Nat.pos_of_ne_zero hnum)).ne'
    obtain ⟨k, hk⟩ : ∃ k, k = (decimalDigits (den / num)).length := ⟨_, rfl⟩
    have hpos : 0 < k := by
      rw [hk]
      exact List.length_pos_of_ne_nil (decimalDigits_ne_nil _)
    have hlt : den < 10 ^ k * num := by
      rw [← Nat.div_lt_iff_lt_mul (Nat.pos_of_ne_zero hnum)]
      exact (length_decimalDigits_le_iff hpos).1 hk.symm.le
    have hlt' : (den : ℚ) < 10 ^ k * num := by exact_mod_cast hlt
    have hdenpos : (0 : ℚ) < den := Nat.cast_pos.2 (Nat.pos_of_ne_zero hden)
    rw [← hk, sub_sub_cancel_left, zpow_neg, zpow_natCast, inv_eq_one_div,
      div_le_div_iff₀ (by positivity) hdenpos, one_mul, mul_comm]
    exact hlt'.le

theorem cast_div_add_mod (n d : ℕ) : (n : ℚ) = (n / d : ℕ) * d + (n % d : ℕ) := by
  exact_mod_cast (Nat.div_add_mod' n d).symm

theorem lower_neighbour_near {n d : ℕ} (h : 2 * (n % d) ≤ d) :
    |((n / d : ℕ) : ℚ) * d - n| ≤ d / 2 := by
  have h' : 2 * ((n % d : ℕ) : ℚ) ≤ d := by exact_mod_cast h
  rw [cast_div_add_mod n d, sub_add_cancel_left, abs_neg, abs_of_nonneg (Nat.cast_nonneg _)]
  linarith

theorem upper_neighbour_near {n d : ℕ} (hd : 0 < d) (h : d ≤ 2 * (n % d)) :
    |((n / d + 1 : ℕ) : ℚ) * d - n| ≤ d / 2 := by
  have h' : (d : ℚ) ≤ 2 * (n % d : ℕ) := by exact_mod_cast h
  have hmod : ((n % d : ℕ) : ℚ) < d := Nat.cast_lt.2 (Nat.mod_lt n hd)
  have hdiv := cast_div_add_mod n d
  rw [Nat.cast_succ, abs_le]
  constructor <;> linarith

/-- One of the two neighbours on a grid is at most half a step of the grid away. -/
theorem exists_mem_neighbours (num : ℕ) {den : ℕ} (hden : den ≠ 0) (grid : ℤ) :
    ∃ m ∈ neighbours num den grid, |(m : ℚ) * 10 ^ grid - num / den| ≤ 10 ^ grid / 2 := by
  have hunit : (0 : ℚ) < 10 ^ grid := by positivity
  obtain ⟨n, hn⟩ : ∃ n, n = num * Nat.pow 10 (-grid).toNat := ⟨_, rfl⟩
  obtain ⟨d, hd⟩ : ∃ d, d = den * Nat.pow 10 grid.toNat := ⟨_, rfl⟩
  have hdpos : 0 < d := by
    rw [hd]
    exact Nat.mul_pos (Nat.pos_of_ne_zero hden) (Nat.pow_pos (by decide))
  have hdpos' : (0 : ℚ) < d := Nat.cast_pos.2 hdpos
  have hvalue : (num : ℚ) / den = (n / d : ℚ) * 10 ^ grid := by
    rw [hn, hd, Double.scaled_div (by decide) num den grid, Nat.cast_ofNat,
      div_mul_cancel₀ _ hunit.ne']
  -- Distances are measured in parts of a step, so that the choice is one of remainders.
  have hclose : ∀ m : ℕ, |(m : ℚ) * d - n| ≤ d / 2 →
      |(m : ℚ) * 10 ^ grid - num / den| ≤ 10 ^ grid / 2 := by
    intro m hm
    have hscaled : (m : ℚ) * 10 ^ grid - num / den = (m * d - n) / d * 10 ^ grid := by
      rw [hvalue, sub_div, mul_div_cancel_right₀ _ hdpos'.ne', sub_mul]
    rw [hscaled, abs_mul, abs_div, abs_of_pos hunit, abs_of_pos hdpos']
    calc |(m : ℚ) * d - n| / d * 10 ^ grid ≤ d / 2 / d * 10 ^ grid :=
          mul_le_mul_of_nonneg_right (div_le_div_of_nonneg_right hm hdpos'.le) hunit.le
      _ = 10 ^ grid / 2 := by field_simp
  rw [neighbours, ← hn, ← hd]
  split_ifs with hlt heq
  · exact ⟨n / d, List.mem_cons_self, hclose _ (lower_neighbour_near hlt.le)⟩
  · exact ⟨n / d, List.mem_cons_self, hclose _ (lower_neighbour_near heq.1.le)⟩
  · exact ⟨n / d + 1, List.mem_cons_self,
      hclose _ (upper_neighbour_near hdpos (le_of_not_gt hlt))⟩

theorem ratio_num_ne_zero {x : Double} (hx : x.place ≠ 0) : x.ratio.1 ≠ 0 :=
  Nat.mul_ne_zero (Double.significand_ne_zero hx) (Nat.pow_pos (by decide)).ne'

theorem ratio_den_ne_zero (x : Double) : x.ratio.2 ≠ 0 :=
  (Nat.pow_pos (by decide)).ne'

theorem withDigits?_seventeen {x : Double} (hx : x.place ≠ 0) :
    (withDigits? x 17).isSome = true := by
  have hnum := ratio_num_ne_zero hx
  have hden := ratio_den_ne_zero x
  obtain ⟨grid, hgrid⟩ : ∃ grid, grid = pointOf x.ratio.1 x.ratio.2 - (17 : ℕ) := ⟨_, rfl⟩
  obtain ⟨m, hm, hnear⟩ := exists_mem_neighbours x.ratio.1 hden grid
  have hpoint := pow_pointOf_le hnum hden
  rw [← x.size_eq_ratio] at hnear hpoint
  have hstep : (10 : ℚ) ^ grid * 10 ^ (16 : ℕ) ≤ x.size := by
    rw [← zpow_natCast, ← zpow_add₀ (by norm_num)]
    convert hpoint using 2
    rw [hgrid]
    push_cast
    ring
  have hread : Double.ofDecimal x.negative m grid = some x := by
    refine Double.ofDecimal_of_near hx ?_
    calc |(m : ℚ) * 10 ^ grid - x.size| * (2 * 10 ^ 16) ≤ 10 ^ grid / 2 * (2 * 10 ^ 16) :=
          mul_le_mul_of_nonneg_right hnear (by norm_num)
      _ = 10 ^ grid * 10 ^ (16 : ℕ) := by ring
      _ ≤ x.size := hstep
  rw [withDigits?, Option.isSome_map, List.find?_isSome]
  refine ⟨m, ?_, by simpa [hgrid] using hread⟩
  rw [hgrid] at hm
  exact hm

theorem firstCount?_isSome {x : Double} {enough : ℕ} (h : (withDigits? x enough).isSome = true) :
    ∀ {fuel count : ℕ}, count ≤ enough → enough < count + fuel →
      (firstCount? x fuel count).isSome = true := by
  intro fuel
  induction fuel with
  | zero => omega
  | succ fuel ih =>
      intro count hle hlt
      rw [firstCount?]
      split
      · rfl
      · rename_i hnone
        have hne : count ≠ enough := by
          rintro rfl
          rw [hnone] at h
          exact absurd h (by decide)
        exact ih (by omega) (by omega)

/-- The search succeeds, and what it finds is read back. -/
theorem exists_shortest? (x : Double) :
    ∃ m e, shortest? x = some (m, e) ∧ Double.ofDecimal x.negative m e = some x := by
  have hsome : (shortest? x).isSome = true := by
    rw [shortest?]
    split_ifs with hzero
    · rfl
    · refine firstCount?_isSome (withDigits?_seventeen ?_) (by decide) (by decide)
      simpa [Double.isZero] using hzero
  obtain ⟨⟨m, e⟩, h⟩ := Option.isSome_iff_exists.1 hsome
  exact ⟨m, e, h, shortest?_reads_back h⟩

/-! ### Digits without zeros at their ends -/

/-- The digits of a decimal stand for a double: the first one is not zero, and they are
read back. -/
structure Spells (d : Decimal) (x : Double) : Prop where
  digit : ∀ c ∈ d.digits, isDigit c = true
  first : ∃ c cs, d.digits = c :: cs ∧ c ≠ '0'
  read : Double.ofDecimal x.negative (decimalValue d.digits) (d.point - d.digits.length) = some x

/-- What is taken off a row of digits to get rid of the zeros at its end. -/
theorem eq_append_replicate_zero (ds : List Char) :
    ∃ k, ds = (ds.reverse.dropWhile (· == '0')).reverse ++ List.replicate k '0' := by
  refine ⟨(ds.reverse.takeWhile (· == '0')).length, ?_⟩
  have hzeros : ds.reverse.takeWhile (· == '0') =
      List.replicate (ds.reverse.takeWhile (· == '0')).length '0' := by
    refine List.eq_replicate_iff.2 ⟨rfl, ?_⟩
    intro c hc
    simpa using List.all_eq_true.1 List.all_takeWhile c hc
  rw [← List.reverse_replicate, ← hzeros, ← List.reverse_append,
    List.takeWhile_append_dropWhile, List.reverse_reverse]

theorem ofScaled_spells {x : Double} {m : ℕ} {e : ℤ} (hx : x.place ≠ 0)
    (h : Double.ofDecimal x.negative m e = some x) : (ofScaled m e).Spells x := by
  have hm : m ≠ 0 := by
    rintro rfl
    rw [Double.ofDecimal_zero, Option.some.injEq] at h
    rw [← h] at hx
    exact hx rfl
  obtain ⟨k, hk⟩ := eq_append_replicate_zero (decimalDigits m)
  obtain ⟨kept, hkept⟩ :
      ∃ kept, kept = ((decimalDigits m).reverse.dropWhile (· == '0')).reverse := ⟨_, rfl⟩
  rw [← hkept] at hk
  have hvalue : m = decimalValue kept * 10 ^ k := by
    rw [← decimalValue_append_zeros, ← hk, decimalValue_decimalDigits]
  have hne : kept ≠ [] := by
    rintro rfl
    rw [decimalValue_nil, zero_mul] at hvalue
    exact hm hvalue
  have hof : ofScaled m e = ⟨kept, (decimalDigits m).length + e⟩ := by
    rw [ofScaled, ← hkept, if_neg (by simpa using hne)]
  obtain ⟨c, cs, hcs⟩ := List.exists_cons_of_ne_nil hne
  have hc : c ≠ '0' := by
    rintro rfl
    rw [hcs] at hk
    exact decimalDigits_ne_zero_cons hm _ hk
  rw [hof]
  refine ⟨?_, ⟨c, cs, hcs, hc⟩, ?_⟩
  · intro d hd
    refine isDigit_of_mem_decimalDigits (n := m) ?_
    rw [hk]
    exact List.mem_append_left _ hd
  · have hlen : (decimalDigits m).length = kept.length + k := by
      rw [hk, List.length_append, List.length_replicate]
    have hpoint : ((decimalDigits m).length + e - kept.length : ℤ) = e + k := by
      rw [hlen]
      push_cast
      ring
    rw [hvalue, Double.ofDecimal_mul_pow] at h
    simp only [hpoint]
    exact h

/-- The shortest digits of a double stand for it. -/
theorem shortest_spells {x : Double} (hx : x.place ≠ 0) : (shortest x).Spells x := by
  obtain ⟨m, e, hfound, hread⟩ := exists_shortest? x
  rw [shortest, hfound]
  exact ofScaled_spells hx hread

/-! ### Laying a decimal out -/

variable {d : Decimal} {x : Double}

/-- The digits before the point are a whole part. -/
theorem Spells.isWhole (h : d.Spells x) : IsWhole d.positional.1 := by
  obtain ⟨c, cs, hcs, hc⟩ := h.first
  rw [positional]
  split_ifs with hpoint
  · exact IsWhole.zero
  · obtain ⟨n, hn⟩ : ∃ n, d.point.toNat = n + 1 := ⟨d.point.toNat - 1, by omega⟩
    refine ⟨?_, .inr ⟨c, cs.take n ++ List.replicate (n + 1 - d.digits.length) '0', ?_, hc⟩⟩
    · intro b hb
      rcases List.mem_append.1 hb with hb | hb
      · exact h.digit b (List.mem_of_mem_take hb)
      · rw [List.eq_of_mem_replicate hb]
        rfl
    · simp only [hn, hcs, List.take_succ_cons, List.cons_append]

/-- The digits behind the point are one or more. -/
theorem Spells.fraction_ne_nil (h : d.Spells x) : d.positional.2 ≠ [] := by
  obtain ⟨c, cs, hcs, -⟩ := h.first
  rw [positional]
  split_ifs with hpoint
  · simp [hcs]
  · simp only
    split_ifs with hle
    · simp
    · simpa using hle

theorem Spells.fraction_digit (h : d.Spells x) : ∀ c ∈ d.positional.2, isDigit c = true := by
  intro c hc
  rw [positional] at hc
  split_ifs at hc with hpoint
  · rcases List.mem_append.1 hc with hc | hc
    · rw [List.eq_of_mem_replicate hc]
      rfl
    · exact h.digit c hc
  · simp only at hc
    split_ifs at hc with hle
    · rw [List.mem_singleton.1 hc]
      rfl
    · exact h.digit c (List.mem_of_mem_drop hc)

/-- The digits on both sides of the point are read back. -/
theorem Spells.positional_read (h : d.Spells x) :
    Double.ofDecimal x.negative (decimalValue (d.positional.1 ++ d.positional.2))
      (-(d.positional.2.length : ℤ)) = some x := by
  have hread := h.read
  rw [positional]
  split_ifs with hpoint
  · have hzero : ∀ ds, decimalValue (['0'] ++ ds) = decimalValue ds :=
      fun ds => decimalValue_zeros_append ds 1
    have hplace : (-((-d.point).toNat + d.digits.length : ℕ) : ℤ) =
        d.point - d.digits.length := by
      omega
    rw [hzero, decimalValue_zeros_append, List.length_append, List.length_replicate, hplace]
    exact hread
  · simp only
    split_ifs with hle
    · -- The digits end before the point: it is reached with zeros, one more standing behind it.
      have hvalue : decimalValue ((d.digits.take d.point.toNat ++
            List.replicate (d.point.toNat - d.digits.length) '0') ++ ['0']) =
          decimalValue d.digits * 10 ^ (d.point.toNat - d.digits.length + 1) := by
        rw [List.take_of_length_le hle, List.append_assoc, ← List.replicate_succ',
          decimalValue_append_zeros]
      have hplace : (-(['0'].length : ℤ) + (d.point.toNat - d.digits.length + 1 : ℕ) : ℤ) =
          d.point - d.digits.length := by
        rw [List.length_singleton]
        omega
      rw [hvalue, Double.ofDecimal_mul_pow, hplace]
      exact hread
    · have hzeros : d.point.toNat - d.digits.length = 0 := by omega
      have hplace : (-((d.digits.drop d.point.toNat).length : ℤ)) = d.point - d.digits.length := by
        rw [List.length_drop]
        omega
      rw [hzeros, List.replicate_zero, List.append_nil, List.take_append_drop, hplace]
      exact hread

end Decimal

end DeviceTwin.Number
