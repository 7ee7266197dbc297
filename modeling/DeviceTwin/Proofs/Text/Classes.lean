import DeviceTwin.Text.Classes
import Mathlib.Data.List.Basic
import Mathlib.Algebra.Ring.Nat
import Mathlib.Tactic.Ring

/-!
# Laws of digits

The decimal digits of a number spell that number, and none of them but the zero itself
begins with a zero. Rows of digits put behind each other spell a sum in which the first
row is moved up by the length of the second.
-/

namespace DeviceTwin.Text

theorem decimalValue_eq_ofDigitChars (ds : List Char) :
    decimalValue ds = Nat.ofDigitChars 10 ds 0 := by
  rw [Nat.ofDigitChars_eq_foldl]
  rfl

@[simp] theorem decimalValue_nil : decimalValue [] = 0 := rfl

theorem decimalValue_append (as bs : List Char) :
    decimalValue (as ++ bs) = decimalValue as * 10 ^ bs.length + decimalValue bs := by
  rw [decimalValue_eq_ofDigitChars, Nat.ofDigitChars_append, Nat.ofDigitChars_eq_ofDigitChars_zero,
    ← decimalValue_eq_ofDigitChars, ← decimalValue_eq_ofDigitChars, mul_comm]

theorem decimalValue_replicate_zero (n : ℕ) : decimalValue (List.replicate n '0') = 0 := by
  rw [decimalValue_eq_ofDigitChars, Nat.ofDigitChars_replicate_zero, mul_zero]

theorem decimalValue_append_zeros (ds : List Char) (n : ℕ) :
    decimalValue (ds ++ List.replicate n '0') = decimalValue ds * 10 ^ n := by
  rw [decimalValue_append, decimalValue_replicate_zero, List.length_replicate, add_zero]

theorem decimalValue_zeros_append (ds : List Char) (n : ℕ) :
    decimalValue (List.replicate n '0' ++ ds) = decimalValue ds := by
  rw [decimalValue_append, decimalValue_replicate_zero, zero_mul, zero_add]

@[simp] theorem decimalValue_decimalDigits (n : ℕ) : decimalValue (decimalDigits n) = n := by
  rw [decimalValue_eq_ofDigitChars, decimalDigits, Nat.ofDigitChars_ten_toDigits]

theorem decimalDigits_ne_nil (n : ℕ) : decimalDigits n ≠ [] :=
  Nat.toDigits_ne_nil

theorem isDigit_iff {c : Char} : isDigit c = true ↔ c.isDigit = true := by
  simp only [isDigit, Char.isDigit, Bool.and_eq_true, decide_eq_true_eq, ge_iff_le,
    UInt32.le_iff_toNat_le]
  exact Iff.rfl

theorem isDigit_of_mem_decimalDigits {c : Char} {n : ℕ} (h : c ∈ decimalDigits n) :
    isDigit c = true :=
  isDigit_iff.2 (Nat.isDigit_of_mem_toDigits (by decide) (by decide) h)

theorem length_decimalDigits_le_iff {n k : ℕ} (hk : 0 < k) :
    (decimalDigits n).length ≤ k ↔ n < 10 ^ k :=
  Nat.length_toDigits_le_iff (by decide) hk

theorem decimalDigits_mul_ten {n : ℕ} (hn : 0 < n) :
    decimalDigits (n * 10) = decimalDigits n ++ ['0'] := by
  have h := Nat.toDigits_append_toDigits (b := 10) (d := 0) (by decide) hn (by decide)
  rw [decimalDigits, decimalDigits, mul_comm, ← Nat.add_zero (10 * n), ← h, Nat.toDigits_zero]

theorem length_decimalDigits_mul_pow {n : ℕ} (hn : 0 < n) (k : ℕ) :
    (decimalDigits (n * 10 ^ k)).length = (decimalDigits n).length + k := by
  induction k with
  | zero => rw [pow_zero, mul_one, Nat.add_zero]
  | succ k ih =>
      have hpos : 0 < n * 10 ^ k := Nat.mul_pos hn (Nat.pow_pos (by decide))
      rw [pow_succ, ← mul_assoc, decimalDigits_mul_ten hpos, List.length_append, ih]
      rfl

theorem decimalDigits_ne_zero_cons {n : ℕ} (hn : n ≠ 0) (ds : List Char) :
    decimalDigits n ≠ '0' :: ds := by
  induction n using Nat.strong_induction_on generalizing ds with
  | h n ih =>
      intro h
      have hdigit : ∀ m < 10, Nat.digitChar m = '0' → m = 0 := by decide
      rw [decimalDigits, Nat.toDigits_eq_if (by decide)] at h
      by_cases hlt : n < 10
      · rw [if_pos hlt] at h
        exact hn (hdigit n hlt (List.cons.inj h).1)
      · rw [if_neg hlt] at h
        have hquot : n / 10 ≠ 0 := by omega
        obtain ⟨c, cs, hcs⟩ := List.exists_cons_of_ne_nil (decimalDigits_ne_nil (n / 10))
        rw [← decimalDigits, hcs, List.cons_append] at h
        obtain ⟨rfl, -⟩ := List.cons.inj h
        exact ih (n / 10) (by omega) hquot cs hcs

theorem decimalDigits_digitValue {c : Char} (h : isDigit c = true) :
    decimalDigits (digitValue c) = [c] := by
  simp only [isDigit, Bool.and_eq_true, decide_eq_true_eq] at h
  have hlt : digitValue c < 10 := by
    rw [digitValue]
    omega
  rw [decimalDigits, Nat.toDigits_of_lt_base hlt]
  refine congrArg (· :: []) (Char.toNat_inj.1 ?_)
  rw [Nat.toNat_digitChar_of_lt_ten hlt, digitValue]
  omega

/-- Digits behind those of a number are the digits of a number again. -/
theorem decimalDigits_append {n : ℕ} (hn : 0 < n) {ds : List Char}
    (h : ∀ c ∈ ds, isDigit c = true) :
    decimalDigits n ++ ds = decimalDigits (ds.foldl (fun n c => 10 * n + digitValue c) n) := by
  induction ds generalizing n with
  | nil => exact List.append_nil _
  | cons c ds ih =>
      obtain ⟨hc, hds⟩ := List.forall_mem_cons.1 h
      have hlt : digitValue c < 10 := by
        simp only [isDigit, Bool.and_eq_true, decide_eq_true_eq] at hc
        rw [digitValue]
        omega
      have hlast : decimalDigits n ++ [c] = decimalDigits (10 * n + digitValue c) := by
        rw [← decimalDigits_digitValue hc]
        exact Nat.toDigits_append_toDigits (by decide) hn hlt
      rw [List.foldl_cons, ← ih (by omega) hds, ← hlast, List.append_assoc, List.singleton_append]

theorem decimalDigits_decimalValue_cons {c : Char} {ds : List Char} (hc : isDigit c = true)
    (hzero : c ≠ '0') (h : ∀ d ∈ ds, isDigit d = true) :
    decimalDigits (decimalValue (c :: ds)) = c :: ds := by
  have hpos : 0 < digitValue c := by
    have hne : c.toNat ≠ 48 := fun heq => hzero (Char.toNat_inj.1 heq)
    simp only [isDigit, Bool.and_eq_true, decide_eq_true_eq] at hc
    rw [digitValue]
    omega
  have hfirst : decimalValue (c :: ds) =
      ds.foldl (fun n c => 10 * n + digitValue c) (digitValue c) := by
    rw [decimalValue, List.foldl_cons, Nat.mul_zero, Nat.zero_add]
  rw [hfirst, ← decimalDigits_append hpos h, decimalDigits_digitValue hc, List.singleton_append]

/-- Digits as they stand before a point: a zero in front stands alone. -/
structure IsWhole (ds : List Char) : Prop where
  digit : ∀ c ∈ ds, isDigit c = true
  first : ds = ['0'] ∨ ∃ c cs, ds = c :: cs ∧ c ≠ '0'

theorem IsWhole.zero : IsWhole ['0'] :=
  ⟨by simp [isDigit], .inl rfl⟩

theorem isWhole_decimalDigits (n : ℕ) : IsWhole (decimalDigits n) := by
  refine ⟨fun c => isDigit_of_mem_decimalDigits, ?_⟩
  rcases Nat.eq_zero_or_pos n with rfl | hn
  · exact .inl rfl
  · obtain ⟨c, cs, hcs⟩ := List.exists_cons_of_ne_nil (decimalDigits_ne_nil n)
    refine .inr ⟨c, cs, hcs, ?_⟩
    rintro rfl
    exact decimalDigits_ne_zero_cons hn.ne' cs hcs

/-- Digits without zeros in front are those of the number that they spell. -/
theorem IsWhole.decimalDigits_decimalValue {ds : List Char} (h : IsWhole ds) :
    decimalDigits (decimalValue ds) = ds := by
  rcases h.first with rfl | ⟨c, cs, rfl, hc⟩
  · rfl
  · obtain ⟨hdigit, hrest⟩ := List.forall_mem_cons.1 h.digit
    exact decimalDigits_decimalValue_cons hdigit hc hrest

/-! ### Hexadecimal digits -/

theorem hexValue?_hexDigit {n : ℕ} (h : n < 16) : hexValue? (hexDigit n) = some n := by
  have hall : ∀ m < 16, hexValue? (hexDigit m) = some m := by decide
  exact hall n h

end DeviceTwin.Text
