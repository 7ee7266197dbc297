import DeviceTwin.Json.Writing
import DeviceTwin.Proofs.Number.Decimal
import DeviceTwin.Proofs.Text.Split

/-!
# Numerals are read back

A written number is a sign, a whole part and perhaps a fraction and an exponent, and the
scanner takes these parts off one by one. It stops where the number ends as long as what
follows does not carry the number on (`EndsNumeral`). An integer is read as that integer.
A real is never written without a point or an exponent, so it is read as a real, and as
the same one by a reader that keeps it (`reads_realText`). The reader that takes the
nearest double keeps every double (`Concrete.nearestReal_readsBack`).
-/

namespace DeviceTwin.Json

open DeviceTwin.Text DeviceTwin.Number

/-- No digit stands in front. -/
def EndsDigits (rest : List Char) : Prop :=
  ∀ c ∈ rest.head?, isDigit c = false

/-- What stands behind a number without becoming part of it. -/
def EndsNumeral (rest : List Char) : Prop :=
  ∀ c ∈ rest.head?, isDigit c = false ∧ c ≠ '.' ∧ c ≠ 'e' ∧ c ≠ 'E'

theorem EndsNumeral.endsDigits {rest : List Char} (h : EndsNumeral rest) : EndsDigits rest :=
  fun c hc => (h c hc).1

theorem endsNumeral_nil : EndsNumeral [] :=
  fun _ hc => absurd hc (Option.not_mem_none _)

theorem endsDigits_cons {c : Char} (rest : List Char) (h : isDigit c = false) :
    EndsDigits (c :: rest) := by
  intro b hb
  rw [List.head?_cons, Option.mem_some_iff] at hb
  exact hb ▸ h

namespace Numeral

variable {rest : List Char}

/-! ### Scanning part by part -/

theorem digits_append {ds : List Char} (h : ∀ c ∈ ds, isDigit c = true) (hrest : EndsDigits rest) :
    digits (ds ++ rest) = (ds, rest) := by
  obtain ⟨htake, hdrop⟩ := takeWhile_append_stop h hrest
  rw [digits, htake, hdrop]

theorem scanExponent_append (n : Numeral) (negative : Bool) {ds : List Char} (hne : ds ≠ [])
    (h : ∀ c ∈ ds, isDigit c = true) (hrest : EndsDigits rest) :
    scanExponent n ((if negative then '-' else '+') :: (ds ++ rest)) =
      .found { n with exponent := some (negative, ds) } rest := by
  obtain ⟨d, ds, rfl⟩ := List.exists_cons_of_ne_nil hne
  cases negative <;> simp only [scanExponent, Bool.false_eq_true, if_true, if_false,
    digits_append h hrest]

theorem scanTail_of_ends (n : Numeral) (hrest : EndsNumeral rest) :
    scanTail n rest = .found n rest := by
  unfold scanTail
  split
  · exact absurd rfl (hrest 'e' rfl).2.2.1
  · exact absurd rfl (hrest 'E' rfl).2.2.2
  · rfl

theorem scanFraction_of_ends (n : Numeral) (hrest : EndsNumeral rest) :
    scanFraction n rest = .found n rest := by
  unfold scanFraction
  split
  · exact absurd rfl (hrest '.' rfl).2.1
  · exact scanTail_of_ends n hrest

theorem scanFraction_append (n : Numeral) {ds : List Char} (hne : ds ≠ [])
    (h : ∀ c ∈ ds, isDigit c = true) (hrest : EndsDigits rest) :
    scanFraction n ('.' :: (ds ++ rest)) = scanTail { n with fraction := ds } rest := by
  obtain ⟨d, ds, rfl⟩ := List.exists_cons_of_ne_nil hne
  simp only [scanFraction, digits_append h hrest]

theorem scanSize_append (negative : Bool) {ds : List Char} (h : IsWhole ds)
    (hrest : EndsDigits rest) :
    scanSize negative (ds ++ rest) = scanFraction ⟨negative, ds, [], none⟩ rest := by
  have hdigits := digits_append h.digit hrest
  rcases h.first with rfl | ⟨c, cs, rfl, hc⟩
  · simp only [scanSize, hdigits]
  · unfold scanSize
    rw [hdigits]
    split
    · rename_i heq
      exact absurd (Prod.mk.inj heq).1 (List.cons_ne_nil _ _)
    · rename_i heq
      exact absurd (List.cons.inj (Prod.mk.inj heq).1).1 hc
    · rename_i heq
      exact absurd (List.cons.inj (Prod.mk.inj heq).1).1 hc
    · rename_i heq
      obtain ⟨rfl, rfl⟩ := Prod.mk.inj heq
      rfl

/-- A sign is told from the first digit behind it. -/
theorem scan_sign (negative : Bool) {ds : List Char} (h : IsWhole ds) (hrest : EndsDigits rest) :
    scan (if negative then '-' :: (ds ++ rest) else ds ++ rest) =
      scanFraction ⟨negative, ds, [], none⟩ rest := by
  cases negative with
  | true =>
      rw [if_pos rfl, scan]
      exact scanSize_append true h hrest
  | false =>
      have hdigit : ∃ c cs, ds = c :: cs ∧ c ≠ '-' := by
        have hne : ds ≠ [] := by
          rcases h.first with rfl | ⟨c, cs, rfl, -⟩ <;> exact List.cons_ne_nil _ _
        obtain ⟨c, cs, rfl⟩ := List.exists_cons_of_ne_nil hne
        refine ⟨c, cs, rfl, ?_⟩
        rintro rfl
        exact absurd (h.digit '-' List.mem_cons_self) (by decide)
      obtain ⟨c, cs, rfl, hc⟩ := hdigit
      rw [if_neg Bool.false_ne_true, ← scanSize_append false h hrest]
      unfold scan
      split
      · rename_i heq
        exact absurd (List.cons.inj heq).1 hc
      · rfl

/-! ### Integers -/

theorem scan_integerText (n : ℤ) (hrest : EndsNumeral rest) :
    scan (integerText n ++ rest) =
      .found ⟨decide (n < 0), decimalDigits n.natAbs, [], none⟩ rest := by
  have hsign := scan_sign (decide (n < 0)) (isWhole_decimalDigits n.natAbs) hrest.endsDigits
  have htext : integerText n ++ rest =
      if decide (n < 0) then '-' :: (decimalDigits n.natAbs ++ rest)
      else decimalDigits n.natAbs ++ rest := by
    rw [integerText]
    by_cases hneg : n < 0
    · rw [if_pos hneg, if_pos (decide_eq_true hneg), List.cons_append]
    · rw [if_neg hneg, if_neg (by simpa using hneg)]
  rw [htext, hsign, scanFraction_of_ends _ hrest]

theorem number_integer [RealReader] {n : ℤ} (h : IsWide64 n) :
    number ⟨decide (n < 0), decimalDigits n.natAbs, [], none⟩ rest = .integer ⟨n, h⟩ := by
  have hvalue : (if decide (n < 0) then -(n.natAbs : ℤ) else n.natAbs) = n := by
    split_ifs with hneg
    · have := of_decide_eq_true hneg
      omega
    · have : ¬ n < 0 := by simpa using hneg
      omega
  have hsigned : (decide (n < 0) && decide (n = 0)) = false := by
    simp only [Bool.and_eq_false_iff, decide_eq_false_iff_not]
    omega
  have hinteger :
      integer? ⟨decide (n < 0), decimalDigits n.natAbs, [], none⟩ = some ⟨n, h⟩ := by
    simp only [integer?, decimalValue_decimalDigits, hvalue, List.isEmpty_nil,
      Option.isNone_none, Bool.and_self, if_true, hsigned, Bool.false_eq_true, if_false, dif_pos h]
  rw [number, hinteger]

/-- A written integer is read as that integer. -/
theorem reads_integerText [RealReader] {n : ℤ} (h : IsWide64 n) (hrest : EndsNumeral rest) :
    ∃ num, scan (integerText n ++ rest) = .found num rest ∧
      num.number rest = .integer ⟨n, h⟩ :=
  ⟨_, scan_integerText n hrest, number_integer h⟩

/-! ### Reals -/

/-- Spelled with a point or an exponent. -/
def IsReal (num : Numeral) : Prop :=
  num.fraction ≠ [] ∨ num.exponent ≠ none

theorem number_of_isReal [RealReader] {num : Numeral} {x : Double} (hkind : num.IsReal)
    (hread : RealReader.double? num = some x) : num.number rest = .real x := by
  have hinteger : num.integer? = none := by
    rw [integer?, if_neg]
    rw [Bool.and_eq_true, List.isEmpty_iff, Option.isNone_iff_eq_none]
    exact fun h => hkind.elim (fun hf => hf h.1) (fun he => he h.2)
  rw [number, hinteger]
  simp only [real, hread]

theorem scan_signed (x : Double) {ds more : List Char} (h : IsWhole ds)
    (hmore : EndsDigits (more ++ rest)) :
    scan (x.signed (ds ++ more) ++ rest) =
      scanFraction ⟨x.negative, ds, [], none⟩ (more ++ rest) := by
  have htext : x.signed (ds ++ more) ++ rest =
      if x.negative then '-' :: (ds ++ (more ++ rest)) else ds ++ (more ++ rest) := by
    rw [Double.signed]
    split_ifs <;> simp only [List.cons_append, List.append_assoc]
  rw [htext, scan_sign x.negative h hmore]

/-- A number with a point is read part by part. -/
theorem scan_signed_point (x : Double) {as bs : List Char} (ha : IsWhole as) (hne : bs ≠ [])
    (hb : ∀ c ∈ bs, isDigit c = true) (hrest : EndsNumeral rest) :
    scan (x.signed (as ++ '.' :: bs) ++ rest) = .found ⟨x.negative, as, bs, none⟩ rest := by
  rw [scan_signed x ha (endsDigits_cons _ (by decide)), List.cons_append,
    scanFraction_append _ hne hb hrest.endsDigits, scanTail_of_ends _ hrest]

/-- A text of a real: whatever follows it, the scanner takes it off as one numeral, and this
numeral is nearest to the real. -/
def IsText (text : List Char) (x : Double) : Prop :=
  ∃ num : Numeral, num.IsReal ∧ num.nearest? = some x ∧
    ∀ rest, EndsNumeral rest → scan (text ++ rest) = .found num rest

theorem isText_pointed {d : Decimal} {x : Double} (h : d.Spells x) :
    IsText (x.signed d.pointed) x := by
  refine ⟨_, .inl h.fraction_ne_nil, ?_, fun rest hrest =>
    scan_signed_point x h.isWhole h.fraction_ne_nil h.fraction_digit hrest⟩
  rw [nearest?, power, zero_sub]
  exact h.positional_read

/-- The exponent of a number and its sign. -/
def exponentText (e : ℤ) : List Char :=
  'e' :: (if e < 0 then '-' else '+') :: decimalDigits e.natAbs

theorem scanTail_exponentText (num : Numeral) (e : ℤ) (hrest : EndsDigits rest) :
    scanTail num (exponentText e ++ rest) =
      .found { num with exponent := some (decide (e < 0), decimalDigits e.natAbs) } rest := by
  have hscan := scanExponent_append num (decide (e < 0)) (decimalDigits_ne_nil e.natAbs)
    (fun c => isDigit_of_mem_decimalDigits) hrest
  simp only [decide_eq_true_eq] at hscan
  exact hscan

theorem power_exponentText (e : ℤ) :
    power (some (decide (e < 0), decimalDigits e.natAbs)) = e := by
  rw [power, decimalValue_decimalDigits]
  split_ifs with hneg
  · have := of_decide_eq_true hneg
    omega
  · have : ¬ e < 0 := by simpa using hneg
    omega

/-- A number with an exponent is read part by part; a single digit stands without a point. -/
theorem scan_signed_scientific (x : Double) {d : Decimal} {c : Char} {cs : List Char}
    (hdigits : d.digits = c :: cs) (hc : c ≠ '0') (h : ∀ b ∈ c :: cs, isDigit b = true)
    (hrest : EndsNumeral rest) :
    scan (x.signed d.scientific ++ rest) =
      .found ⟨x.negative, [c], cs,
        some (decide (d.point - 1 < 0), decimalDigits (d.point - 1).natAbs)⟩ rest := by
  obtain ⟨hfirst, hfraction⟩ := List.forall_mem_cons.1 h
  have hwhole : IsWhole [c] :=
    ⟨List.forall_mem_singleton.2 hfirst, .inr ⟨c, [], rfl, hc⟩⟩
  have hends : ∀ s, EndsDigits (exponentText (d.point - 1) ++ s) :=
    fun s => endsDigits_cons _ (by decide)
  cases cs with
  | nil =>
      have htext : d.scientific = [c] ++ exponentText (d.point - 1) := by
        rw [Decimal.scientific, hdigits]
        rfl
      rw [htext, scan_signed x hwhole (hends rest)]
      exact scanTail_exponentText _ _ hrest.endsDigits
  | cons b bs =>
      have htext :
          d.scientific = [c] ++ ('.' :: ((b :: bs) ++ exponentText (d.point - 1))) := by
        rw [Decimal.scientific, hdigits]
        rfl
      rw [htext, scan_signed x hwhole (endsDigits_cons _ (by decide)), List.cons_append,
        List.append_assoc, scanFraction_append _ (List.cons_ne_nil b bs) hfraction (hends rest)]
      exact scanTail_exponentText _ _ hrest.endsDigits

theorem isText_scientific {d : Decimal} {x : Double} (h : d.Spells x) :
    IsText (x.signed d.scientific) x := by
  obtain ⟨c, cs, hcs, hc⟩ := h.first
  have hdigit := h.digit
  have hread := h.read
  rw [hcs] at hdigit hread
  have hplace : power (some (decide (d.point - 1 < 0), decimalDigits (d.point - 1).natAbs))
      - (cs.length : ℤ) = d.point - ((c :: cs).length : ℕ) := by
    rw [power_exponentText, List.length_cons]
    push_cast
    ring
  refine ⟨_, .inr (Option.some_ne_none _), ?_, fun rest hrest =>
    scan_signed_scientific x hcs hc hdigit hrest⟩
  simp only [nearest?, hplace]
  exact hread

/-- A written real is the numeral nearest to it, its sign with it also where it is zero. -/
theorem isText_realText (x : Double) : IsText (realText x).toList x := by
  rw [realText, String.toList_ofList]
  split_ifs with hzero hpoint
  · have hx : x = Double.zero x.negative := by
      obtain ⟨negative, place, finite⟩ := x
      have hplace : place = 0 := by simpa [Double.isZero] using hzero
      subst hplace
      rfl
    refine ⟨⟨x.negative, ['0'], ['0'], none⟩, .inl (List.cons_ne_nil _ _), ?_, fun rest hrest =>
      scan_signed_point x IsWhole.zero (List.cons_ne_nil _ _) IsWhole.zero.digit hrest⟩
    rw [hx]
    exact Double.ofDecimal_zero x.negative _
  all_goals
    have hplace : x.place ≠ 0 := by simpa [Double.isZero] using hzero
  · exact isText_pointed (Decimal.shortest_spells hplace)
  · exact isText_scientific (Decimal.shortest_spells hplace)

/-- A written real is read as that real by a reader that keeps it. -/
theorem reads_realText [RealReader] {x : Double} (hx : RealReader.Keeps x)
    (hrest : EndsNumeral rest) :
    ∃ num, scan ((realText x).toList ++ rest) = .found num rest ∧ num.number rest = .real x := by
  obtain ⟨num, hreal, -, hscan⟩ := isText_realText x
  have halone := hscan [] endsNumeral_nil
  rw [List.append_nil] at halone
  exact ⟨num, hscan rest hrest, number_of_isReal hreal (hx num halone)⟩

end Numeral

end DeviceTwin.Json

namespace DeviceTwin.Concrete

open DeviceTwin.Json

theorem nearestReal_readsBack : RealReader.ReadsBack := by
  intro x num hnum
  obtain ⟨spelled, -, hnearest, hscan⟩ := Numeral.isText_realText x
  have halone := hscan [] endsNumeral_nil
  rw [List.append_nil, hnum] at halone
  obtain ⟨rfl, -⟩ := Scan.found.inj halone
  exact hnearest

end DeviceTwin.Concrete
