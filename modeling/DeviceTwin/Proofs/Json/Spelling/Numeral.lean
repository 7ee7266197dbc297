import DeviceTwin.Proofs.Json.Numeral
import Mathlib.Data.List.TakeWhile

/-!
# The spellings of a number

A number is spelled by its whole part, with a minus sign or none, a fraction and an exponent,
both of which may be missing. The scanner finds every number that is spelled so and has its
end before something that does not carry it on (`scan_spelled`), and it finds nothing else
(`exists_of_scan`).
-/

namespace DeviceTwin.Json

open DeviceTwin.Text

namespace Numeral

/-- One digit or more. -/
structure Digits where
  val : List Char
  digit : ∀ c ∈ val, isDigit c = true
  ne_nil : val ≠ []

/-- An exponent: its letter, its sign if there is one, and its digits. -/
structure Exponent where
  capital : Bool
  negative : Option Bool
  digits : Digits

/-- A number as it is spelled. -/
structure Spelled where
  negative : Bool
  whole : List Char
  isWhole : IsWhole whole
  fraction : Option Digits
  exponent : Option Exponent

namespace Exponent

def spell (e : Exponent) : List Char :=
  (if e.capital then 'E' else 'e') ::
    (match e.negative with
    | none => e.digits.val
    | some negative => (if negative then '-' else '+') :: e.digits.val)

def value (e : Exponent) : Bool × List Char :=
  (e.negative.getD false, e.digits.val)

end Exponent

namespace Spelled

/-- The part behind the whole part. -/
def tail (s : Spelled) : List Char :=
  (s.fraction.elim [] fun ds => '.' :: ds.val) ++ s.exponent.elim [] Exponent.spell

def spell (s : Spelled) : List Char :=
  if s.negative then '-' :: (s.whole ++ s.tail) else s.whole ++ s.tail

def numeral (s : Spelled) : Numeral :=
  ⟨s.negative, s.whole, (s.fraction.map Digits.val).getD [], s.exponent.map Exponent.value⟩

end Spelled

variable {rest : List Char}

/-! ### What is spelled is found -/

theorem scanExponent_digits (n : Numeral) (ds : Digits) (hrest : EndsDigits rest) :
    scanExponent n (ds.val ++ rest) = .found { n with exponent := some (false, ds.val) } rest := by
  obtain ⟨ds, hdigit, hne⟩ := ds
  obtain ⟨d, ds, rfl⟩ := List.exists_cons_of_ne_nil hne
  have hd : isDigit d = true := hdigit d List.mem_cons_self
  have hsign : ∀ c, isDigit c = false → d ≠ c := by
    rintro c hc rfl
    exact Bool.false_ne_true (hc.symm.trans hd)
  unfold scanExponent
  split
  rename_i heq
  split at heq
  · rename_i h
    exact absurd (List.cons.inj h).1 (hsign '+' (by decide))
  · rename_i h
    exact absurd (List.cons.inj h).1 (hsign '-' (by decide))
  · obtain ⟨rfl, rfl⟩ := Prod.mk.inj heq
    simp only [digits_append hdigit hrest]

theorem scanTail_exponent (n : Numeral) (e : Exponent) (hrest : EndsDigits rest) :
    scanTail n (e.spell ++ rest) = .found { n with exponent := some e.value } rest := by
  have hexponent : ∀ s, scanTail n ((if e.capital then 'E' else 'e') :: s) = scanExponent n s := by
    intro s
    cases e.capital <;> rfl
  obtain ⟨capital, negative, digits⟩ := e
  rw [Exponent.spell, List.cons_append, hexponent]
  cases negative with
  | none => exact scanExponent_digits n digits hrest
  | some negative => exact scanExponent_append n negative digits.ne_nil digits.digit hrest

theorem endsDigits_exponent (e : Option Exponent) (hrest : EndsDigits rest) :
    EndsDigits (e.elim [] Exponent.spell ++ rest) := by
  cases e with
  | none => exact hrest
  | some e =>
      refine endsDigits_cons _ ?_
      cases e.capital <;> decide

theorem Spelled.endsDigits_tail (s : Spelled) (hrest : EndsDigits rest) :
    EndsDigits (s.tail ++ rest) := by
  obtain ⟨negative, whole, isWhole, fraction, exponent⟩ := s
  cases fraction with
  | none => exact endsDigits_exponent exponent hrest
  | some ds => exact endsDigits_cons _ (by decide)

theorem scanTail_spelled (negative : Bool) (whole fraction : List Char) (e : Option Exponent)
    (hrest : EndsNumeral rest) :
    scanTail ⟨negative, whole, fraction, none⟩ (e.elim [] Exponent.spell ++ rest) =
      .found ⟨negative, whole, fraction, e.map Exponent.value⟩ rest := by
  cases e with
  | none => exact scanTail_of_ends _ hrest
  | some e => exact scanTail_exponent _ e hrest.endsDigits

/-- The exponent does not begin as a fraction does. -/
theorem scanFraction_exponent (n : Numeral) (e : Option Exponent) (hrest : EndsNumeral rest) :
    scanFraction n (e.elim [] Exponent.spell ++ rest) =
      scanTail n (e.elim [] Exponent.spell ++ rest) := by
  cases e with
  | none => exact (scanFraction_of_ends n hrest).trans (scanTail_of_ends n hrest).symm
  | some e =>
      obtain ⟨capital, negative, digits⟩ := e
      cases capital <;> rfl

theorem scanFraction_spelled (s : Spelled) (hrest : EndsNumeral rest) :
    scanFraction ⟨s.negative, s.whole, [], none⟩ (s.tail ++ rest) = .found s.numeral rest := by
  obtain ⟨negative, whole, isWhole, fraction, exponent⟩ := s
  rw [Spelled.tail, List.append_assoc]
  cases fraction with
  | none =>
      exact (scanFraction_exponent _ exponent hrest).trans
        (scanTail_spelled negative whole [] exponent hrest)
  | some ds =>
      exact (scanFraction_append _ ds.ne_nil ds.digit
        (endsDigits_exponent exponent hrest.endsDigits)).trans
          (scanTail_spelled negative whole ds.val exponent hrest)

theorem scan_spelled (s : Spelled) (hrest : EndsNumeral rest) :
    scan (s.spell ++ rest) = .found s.numeral rest := by
  have htext : s.spell ++ rest =
      if s.negative then '-' :: (s.whole ++ (s.tail ++ rest)) else s.whole ++ (s.tail ++ rest) := by
    rw [Spelled.spell]
    split_ifs <;> simp only [List.cons_append, List.append_assoc]
  rw [htext, scan_sign s.negative s.isWhole (s.endsDigits_tail hrest.endsDigits),
    scanFraction_spelled s hrest]

/-! ### What is found is spelled -/

/-- The digits that a scanner takes off, if it finds any. -/
theorem exists_of_digits {s ds : List Char} (h : digits s = (ds, rest)) (hne : ds ≠ []) :
    ∃ row : Digits, row.val = ds ∧ s = ds ++ rest := by
  obtain ⟨rfl, rfl⟩ := Prod.mk.inj h
  exact ⟨⟨_, fun _ => List.mem_takeWhile_imp, hne⟩, rfl, List.takeWhile_append_dropWhile.symm⟩

theorem exists_of_scanExponent {n found : Numeral} {s : List Char} (capital : Bool)
    (h : scanExponent n s = .found found rest) :
    ∃ e : Exponent, (if capital then 'E' else 'e') :: s = e.spell ++ rest ∧
      found = { n with exponent := some e.value } := by
  unfold scanExponent at h
  split at h
  rename_i negative t hsign
  split at h
  · cases t <;> exact nomatch h
  · rename_i ds more hne hds
    obtain ⟨rfl, rfl⟩ := Scan.found.inj h
    obtain ⟨row, rfl, rfl⟩ := exists_of_digits hds hne
    split at hsign
    · obtain ⟨rfl, rfl⟩ := Prod.mk.inj hsign
      exact ⟨⟨capital, some false, row⟩, rfl, rfl⟩
    · obtain ⟨rfl, rfl⟩ := Prod.mk.inj hsign
      exact ⟨⟨capital, some true, row⟩, rfl, rfl⟩
    · obtain ⟨rfl, rfl⟩ := Prod.mk.inj hsign
      exact ⟨⟨capital, none, row⟩, rfl, rfl⟩

theorem exists_of_scanTail {n found : Numeral} {s : List Char} (hn : n.exponent = none)
    (h : scanTail n s = .found found rest) :
    ∃ e : Option Exponent, s = e.elim [] Exponent.spell ++ rest ∧
      found = { n with exponent := e.map Exponent.value } := by
  unfold scanTail at h
  split at h
  · obtain ⟨e, htext, hfound⟩ := exists_of_scanExponent false h
    exact ⟨some e, htext, hfound⟩
  · obtain ⟨e, htext, hfound⟩ := exists_of_scanExponent true h
    exact ⟨some e, htext, hfound⟩
  · obtain ⟨rfl, rfl⟩ := Scan.found.inj h
    obtain ⟨negative, whole, fraction, exponent⟩ := n
    obtain rfl : exponent = none := hn
    exact ⟨none, rfl, rfl⟩

theorem exists_of_scanFraction {negative : Bool} {whole s : List Char} {found : Numeral}
    (isWhole : IsWhole whole) (h : scanFraction ⟨negative, whole, [], none⟩ s = .found found rest) :
    ∃ spelled : Spelled, spelled.negative = negative ∧ whole ++ s = spelled.whole ++
      (spelled.tail ++ rest) ∧ found = spelled.numeral := by
  unfold scanFraction at h
  split at h
  · split at h
    · rename_i t _ _ _
      cases t <;> exact nomatch h
    · rename_i hne hds
      obtain ⟨row, rfl, rfl⟩ := exists_of_digits hds hne
      obtain ⟨e, rfl, rfl⟩ := exists_of_scanTail rfl h
      exact ⟨⟨negative, whole, isWhole, some row, e⟩, rfl, by simp [Spelled.tail], rfl⟩
  · obtain ⟨e, rfl, rfl⟩ := exists_of_scanTail rfl h
    exact ⟨⟨negative, whole, isWhole, none, e⟩, rfl, by simp [Spelled.tail], rfl⟩

theorem exists_of_scanSize {negative : Bool} {s : List Char} {found : Numeral}
    (h : scanSize negative s = .found found rest) :
    ∃ spelled : Spelled, spelled.negative = negative ∧ s = spelled.whole ++
      (spelled.tail ++ rest) ∧ found = spelled.numeral := by
  unfold scanSize at h
  split at h
  · cases s <;> exact nomatch h
  · rename_i t hds
    obtain ⟨row, hrow, rfl⟩ := exists_of_digits hds (List.cons_ne_nil _ _)
    exact exists_of_scanFraction .zero h
  · exact nomatch h
  · rename_i ds t hne hzero hzeros hds
    obtain ⟨row, rfl, rfl⟩ := exists_of_digits hds hne
    refine exists_of_scanFraction ⟨row.digit, ?_⟩ h
    obtain ⟨c, cs, hcs⟩ := List.exists_cons_of_ne_nil row.ne_nil
    refine .inr ⟨c, cs, hcs, ?_⟩
    rintro rfl
    cases cs with
    | nil => exact hzero hcs
    | cons b bs => exact hzeros b bs hcs

/-- A number that the scanner finds is spelled in front of what it leaves. -/
theorem exists_of_scan {s : List Char} {found : Numeral} (h : scan s = .found found rest) :
    ∃ spelled : Spelled, s = spelled.spell ++ rest ∧ found = spelled.numeral := by
  unfold scan at h
  split at h
  · obtain ⟨spelled, hsign, rfl, hfound⟩ := exists_of_scanSize h
    exact ⟨spelled, by simp [Spelled.spell, hsign], hfound⟩
  · obtain ⟨spelled, hsign, rfl, hfound⟩ := exists_of_scanSize h
    exact ⟨spelled, by simp [Spelled.spell, hsign], hfound⟩

end Numeral

end DeviceTwin.Json
