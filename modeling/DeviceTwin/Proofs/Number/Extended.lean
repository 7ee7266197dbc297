import DeviceTwin.Number.Extended
import DeviceTwin.Proofs.Number.Decimal
import DeviceTwin.Proofs.Text.Lower
import DeviceTwin.Proofs.Text.Split

/-!
# Numbers in settings that are read back

The text of a number is a sign and a body: the digits of a whole number, or those on both sides
of a point. Reading it gives the number again (`Extended.ofText?_plain`), with infinities and
what is no number. As an integer such a text is read too if it has no point, and the integer then
has the same text (`Extended.integer?_plain`), unless it is the zero with a sign: `-0` is the
text of a double but of no integer.
-/

namespace DeviceTwin

open DeviceTwin.Text

/-- A character of the text of a finite number. -/
def Text.IsNumeric (c : Char) : Prop :=
  isDigit c = true ∨ c = '-' ∨ c = '.'

namespace Text.IsNumeric

variable {c : Char}

theorem toNat_lt (h : IsNumeric c) : c.toNat < 65 := by
  rcases h with h | rfl | rfl
  · simp only [isDigit, Bool.and_eq_true, decide_eq_true_eq] at h
    omega
  · decide
  · decide

theorem toLower_eq (h : IsNumeric c) : toLower c = c := by
  refine toLower_of_not_isUpper fun hupper => ?_
  have := isUpper_iff.1 hupper
  have := h.toNat_lt
  omega

/-- Texts of numbers have no capitals. -/
theorem lowered_eq {s : String} (h : ∀ c ∈ s.toList, IsNumeric c) : lowered s = s := by
  have hascii : IsAscii s.toList := fun c hc => Nat.lt_trans (h c hc).toNat_lt (by decide)
  have hsmall : s.toList.map toLower = s.toList :=
    (List.map_congr_left fun c hc => (h c hc).toLower_eq).trans (List.map_id _)
  rw [← String.ofList_toList (s := s), lowered_ofList hascii, hsmall]

end Text.IsNumeric

namespace Number

/-! ### Integers -/

/-- The text of an integer: its digits, and a sign if it is negative. -/
theorem toList_toString (n : ℤ) : (toString n).toList =
    if n < 0 then '-' :: decimalDigits n.natAbs else decimalDigits n.natAbs := by
  cases n with
  | ofNat m =>
      have hm : ¬ Int.ofNat m < 0 := Int.not_lt.2 (Int.natCast_nonneg m)
      rw [if_neg hm]
      change (toString m).toList = decimalDigits m
      simp [decimalDigits]
  | negSucc m =>
      rw [if_pos (Int.negSucc_lt_zero m)]
      change ("-" ++ toString (m + 1)).toList = '-' :: decimalDigits (m + 1)
      simp [decimalDigits]

namespace Extended

variable {negative : Bool} {ds : List Char}

theorem allDigits_iff {s : List Char} :
    allDigits s = true ↔ s ≠ [] ∧ ∀ c ∈ s, isDigit c = true := by
  simp [allDigits]

theorem allDigits_of_isWhole (h : IsWhole ds) : allDigits ds = true := by
  refine allDigits_iff.2 ⟨?_, h.digit⟩
  rintro rfl
  rcases h.first with h | ⟨c, cs, h, -⟩ <;> cases h

/-- A text that begins with a digit. -/
def BeginsWithDigit (s : List Char) : Prop :=
  ∃ c cs, s = c :: cs ∧ isDigit c = true

theorem beginsWithDigit_of_isWhole (h : IsWhole ds) (s : List Char) :
    BeginsWithDigit (ds ++ s) := by
  obtain ⟨hne, hdigit⟩ := allDigits_iff.1 (allDigits_of_isWhole h)
  obtain ⟨c, cs, rfl⟩ := List.exists_cons_of_ne_nil hne
  exact ⟨c, cs ++ s, rfl, hdigit c List.mem_cons_self⟩

/-- A sign is read in front of a digit, or that there is none. -/
theorem sign_signed (negative : Bool) {body : List Char} (h : BeginsWithDigit body) :
    sign (if negative then '-' :: body else body) = (negative, body) := by
  obtain ⟨c, cs, rfl, hc⟩ := h
  cases negative with
  | true => rfl
  | false =>
      have hminus : c ≠ '-' := by
        rintro rfl
        cases hc
      have hplus : c ≠ '+' := by
        rintro rfl
        cases hc
      simp [sign, hminus, hplus]

theorem signedDigits?_signed (negative : Bool) (h : IsWhole ds) :
    signedDigits? (if negative then '-' :: ds else ds) =
      some (if negative then -(decimalValue ds : ℤ) else decimalValue ds) := by
  have hsign := sign_signed negative (ds.append_nil ▸ beginsWithDigit_of_isWhole h [])
  rw [signedDigits?, hsign]
  simp only [allDigits_of_isWhole h, if_true]

/-- An integer of 64 bits is read back. -/
theorem integer?_toString {n : ℤ} (h : IsSigned64 n) :
    integer? (toString n).toList = some n := by
  have hread := signedDigits?_signed (decide (n < 0)) (isWhole_decimalDigits n.natAbs)
  have hvalue : (if decide (n < 0) = true then -((n.natAbs : ℕ) : ℤ) else n.natAbs) = n := by
    split_ifs with hn
    · have := of_decide_eq_true hn
      omega
    · have := of_decide_eq_false (Bool.not_eq_true _ ▸ hn)
      omega
  rw [decimalValue_decimalDigits, hvalue] at hread
  rw [integer?, toList_toString]
  simp only [decide_eq_true_eq] at hread
  rw [hread, Option.filter_some, if_pos (decide_eq_true h)]

/-- An integer that is read from digits without zeros in front has the text that was read, if
that is not a zero with a sign. -/
theorem toString_of_signed (negative : Bool) (h : IsWhole ds)
    (hzero : negative = true → ds ≠ ['0']) :
    (toString (if negative then -(decimalValue ds : ℤ) else decimalValue ds)).toList =
      if negative then '-' :: ds else ds := by
  rw [toList_toString]
  cases negative with
  | false =>
      have hpos : ¬ (decimalValue ds : ℤ) < 0 := Int.not_lt.2 (Int.natCast_nonneg _)
      simp only [Bool.false_eq_true, if_false, if_neg hpos, Int.natAbs_natCast,
        h.decimalDigits_decimalValue]
  | true =>
      have hne : decimalValue ds ≠ 0 := by
        intro hvalue
        have hdigits := h.decimalDigits_decimalValue
        rw [hvalue] at hdigits
        exact hzero rfl hdigits.symm
      have hneg : -(decimalValue ds : ℤ) < 0 := by omega
      simp only [if_true, if_pos hneg, Int.natAbs_neg, Int.natAbs_natCast,
        h.decimalDigits_decimalValue]

/-! ### Doubles -/

theorem exponent?_eq_zero {s : List Char} (h : ∀ c ∈ s, c ≠ 'e' ∧ c ≠ 'E') :
    exponent? s = some (s, 0) := by
  induction s with
  | nil => rfl
  | cons c s ih =>
      obtain ⟨⟨he, hE⟩, hs⟩ := List.forall_mem_cons.1 h
      simp [exponent?, he, hE, ih hs]

/-- A text of a sign, digits, and perhaps a point is no word and has no exponent. -/
theorem ofText?_signed (negative : Bool) {body : List Char} (hfirst : BeginsWithDigit body)
    (hbody : ∀ c ∈ body, IsNumeric c) :
    ofText? (if negative then '-' :: body else body) =
      let (whole, part) := (cut '.' body).getD (body, [])
      if allDigits (whole ++ part) then
        some (ofDecimal negative (decimalValue (whole ++ part)) (0 - part.length))
      else
        none := by
  have hword : ∀ w : List Char, (∀ c ∈ w.head?, isDigit c = false) → body.map toLower ≠ w := by
    rintro w hw rfl
    obtain ⟨c, cs, rfl, hc⟩ := hfirst
    have hhead := hw (toLower c) rfl
    rw [IsNumeric.toLower_eq (.inl hc), hc] at hhead
    cases hhead
  have hexponent : exponent? body = some (body, 0) := by
    refine exponent?_eq_zero fun c hc => ⟨?_, ?_⟩ <;> rintro rfl
    · exact absurd (hbody _ hc).toNat_lt (by decide)
    · exact absurd (hbody _ hc).toNat_lt (by decide)
  have hwords : (body.map toLower ≠ ['i', 'n', 'f'] ∧
      body.map toLower ≠ ['i', 'n', 'f', 'i', 'n', 'i', 't', 'y']) ∧
        body.map toLower ≠ ['n', 'a', 'n'] :=
    ⟨⟨hword _ (by simp [isDigit]), hword _ (by simp [isDigit])⟩, hword _ (by simp [isDigit])⟩
  rw [ofText?, sign_signed negative hfirst]
  simp [hwords, hexponent]

theorem ofText?_whole (negative : Bool) (h : IsWhole ds) :
    ofText? (if negative then '-' :: ds else ds) =
      some (ofDecimal negative (decimalValue ds) 0) := by
  have hdot : '.' ∉ ds := fun hmem => absurd (h.digit _ hmem) (by decide)
  rw [ofText?_signed negative (ds.append_nil ▸ beginsWithDigit_of_isWhole h [])
    fun c hc => .inl (h.digit c hc), cut_eq_none_iff.2 hdot]
  simp [allDigits_of_isWhole h]

theorem ofText?_pointed (negative : Bool) {part : List Char} (h : IsWhole ds)
    (hpart : ∀ c ∈ part, isDigit c = true) :
    ofText? (if negative then '-' :: (ds ++ '.' :: part) else ds ++ '.' :: part) =
      some (ofDecimal negative (decimalValue (ds ++ part)) (-(part.length : ℤ))) := by
  have hdot : '.' ∉ ds := fun hmem => absurd (h.digit _ hmem) (by decide)
  have hbody : ∀ c ∈ ds ++ '.' :: part, IsNumeric c := by
    intro c hc
    rcases List.mem_append.1 hc with hc | hc
    · exact .inl (h.digit c hc)
    · rcases List.mem_cons.1 hc with rfl | hc
      · exact .inr (.inr rfl)
      · exact .inl (hpart c hc)
  have hall : allDigits (ds ++ part) = true := by
    refine allDigits_iff.2 ⟨?_, fun c hc => (List.mem_append.1 hc).elim (h.digit c) (hpart c)⟩
    exact List.append_ne_nil_of_left_ne_nil (allDigits_iff.1 (allDigits_of_isWhole h)).1 _
  rw [ofText?_signed negative (beginsWithDigit_of_isWhole h _) hbody, cut_append hdot]
  simp [hall]

/-- Digits on both sides of a point that stand for a double. -/
structure LaidOut (x : Double) (whole part : List Char) : Prop where
  isWhole : IsWhole whole
  digit : ∀ c ∈ part, isDigit c = true
  read : Double.ofDecimal x.negative (decimalValue (whole ++ part)) (-(part.length : ℤ)) = some x

theorem digits_laidOut (x : Double) :
    LaidOut x (digits x).positional.1 (digits x).positional.2 := by
  by_cases hx : x.isZero = true
  · have hzero : Double.zero x.negative = x := by
      obtain ⟨negative, place, hplace⟩ := x
      obtain rfl : place = 0 := by simpa [Double.isZero] using hx
      rfl
    have hpositional : (digits x).positional = (['0'], ['0']) := by
      rw [digits, if_pos hx]
      rfl
    rw [hpositional]
    refine ⟨IsWhole.zero, by simp [isDigit], ?_⟩
    exact (Double.ofDecimal_zero _ _).trans (congrArg some hzero)
  · have hspells := Decimal.shortest_spells (x := x) (by simpa [Double.isZero] using hx)
    rw [digits, if_neg hx]
    exact ⟨hspells.isWhole, hspells.fraction_digit, hspells.positional_read⟩

/-- The text of a finite number is that of a whole one, or has a point. -/
theorem plain_finite (x : Double) : ∃ whole part, LaidOut x whole part ∧
    (plain (finite x)).toList =
      let body := if part = ['0'] then whole else whole ++ '.' :: part
      if x.negative then '-' :: body else body :=
  ⟨_, _, digits_laidOut x, String.toList_ofList⟩

theorem LaidOut.read_whole {x : Double} (h : LaidOut x ds ['0']) :
    Double.ofDecimal x.negative (decimalValue ds) 0 = some x := by
  have hread := h.read
  rw [show ['0'] = List.replicate 1 '0' from rfl, decimalValue_append_zeros,
    Double.ofDecimal_mul_pow] at hread
  exact hread

/-- Every number is read from its text. -/
theorem ofText?_plain (x : Extended) : ofText? x.plain.toList = some x := by
  cases x with
  | infinite negative => cases negative <;> rfl
  | notANumber => rfl
  | finite x =>
      obtain ⟨whole, part, hlaid, hplain⟩ := plain_finite x
      rw [hplain]
      by_cases hpart : part = ['0']
      · subst hpart
        simp only [if_true]
        rw [ofText?_whole x.negative hlaid.isWhole, ofDecimal, hlaid.read_whole]
      · simp only [if_neg hpart]
        rw [ofText?_pointed x.negative hlaid.isWhole hlaid.digit, ofDecimal, hlaid.read]

theorem isNumeric_plain (x : Double) : ∀ c ∈ (plain (finite x)).toList, IsNumeric c := by
  obtain ⟨whole, part, hlaid, hplain⟩ := plain_finite x
  have hbody : ∀ c ∈ if part = ['0'] then whole else whole ++ '.' :: part, IsNumeric c := by
    intro c hc
    split_ifs at hc
    · exact .inl (hlaid.isWhole.digit c hc)
    · rcases List.mem_append.1 hc with hc | hc
      · exact .inl (hlaid.isWhole.digit c hc)
      · rcases List.mem_cons.1 hc with rfl | hc
        · exact .inr (.inr rfl)
        · exact .inl (hlaid.digit c hc)
  rw [hplain]
  cases x.negative with
  | false => exact hbody
  | true => exact List.forall_mem_cons.2 ⟨.inr (.inl rfl), hbody⟩

/-- What is no row of digits is no integer. -/
theorem integer?_eq_none {s : List Char} (h : allDigits (sign s).2 = false) :
    integer? s = none := by
  rw [integer?, signedDigits?]
  simp [h]

/-- An integer that is read from the text of a number has this text too, unless that is a zero
with a sign. -/
theorem integer?_plain {x : Extended} {n : ℤ} (hzero : x.plain ≠ "-0")
    (h : integer? x.plain.toList = some n) : toString n = x.plain := by
  cases x with
  | infinite negative => cases negative <;> cases h
  | notANumber => cases h
  | finite x =>
      obtain ⟨whole, part, hlaid, hplain⟩ := plain_finite x
      rw [hplain] at h
      by_cases hpart : part = ['0']
      · simp only [if_pos hpart] at hplain h
        rw [integer?, signedDigits?_signed x.negative hlaid.isWhole] at h
        obtain ⟨hn, -⟩ := Option.filter_eq_some_iff.1 h
        rw [← String.toList_inj, hplain, ← Option.some.inj hn]
        refine toString_of_signed x.negative hlaid.isWhole fun hnegative hwhole => hzero ?_
        rw [← String.toList_inj, hplain, hnegative, hwhole]
        rfl
      · -- A point is not read in an integer.
        have hbody : allDigits (whole ++ '.' :: part) = false := by
          refine Bool.eq_false_iff.2 fun hall => ?_
          have hdot := (allDigits_iff.1 hall).2 '.' (by simp)
          cases hdot
        simp only [if_neg hpart] at h
        rw [integer?_eq_none] at h
        · cases h
        · rw [sign_signed x.negative (beginsWithDigit_of_isWhole hlaid.isWhole _)]
          exact hbody

end Extended

end Number

end DeviceTwin
