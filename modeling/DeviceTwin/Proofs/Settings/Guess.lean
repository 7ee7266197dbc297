import DeviceTwin.Proofs.Number.Extended
import DeviceTwin.Settings.Environment
import DeviceTwin.Settings.Reading

/-!
# Texts out of variables

The value of a variable is taken for a flag or a number if it can be read as one, and where a
text is wanted the flag or the number is put back into a text (`Environment.Delivers`). On the
way back every flag and every number has one text only. A value arrives as it is if it is nothing
but a text, or already has the text of what it is taken for (`Environment.Verbatim`); the one
exception is `-0`, a text of doubles that is taken for the integer 0.
-/

namespace DeviceTwin

open DeviceTwin.Text DeviceTwin.Number DeviceTwin.Settings

namespace Environment

/-- The text that a value is delivered as. -/
inductive Delivers (value : String) : String → Prop
  | flag (b : Bool) (h : lowered value = shownFlag b) : Delivers value (shownFlag b)
  | integer {n : Int} (hflag : ∀ b, lowered value ≠ shownFlag b)
      (h : Extended.integer? value.toList = some n) : Delivers value (toString n)
  | real {x : Extended} (hflag : ∀ b, lowered value ≠ shownFlag b)
      (hinteger : Extended.integer? value.toList = none)
      (h : Extended.ofText? value.toList = some x) : Delivers value x.plain
  | text (hflag : ∀ b, lowered value ≠ shownFlag b)
      (hinteger : Extended.integer? value.toList = none)
      (hreal : Extended.ofText? value.toList = none) : Delivers value value

/-- The values that are delivered as they are. -/
inductive Verbatim : String → Prop
  | flag (b : Bool) : Verbatim (shownFlag b)
  | integer {n : Int} (h : IsSigned64 n) : Verbatim (toString n)
  | real {x : Extended} (h : x.plain ≠ "-0") : Verbatim x.plain
  | text {value : String} (hflag : ∀ b, lowered value ≠ shownFlag b)
      (hinteger : Extended.integer? value.toList = none)
      (hreal : Extended.ofText? value.toList = none) : Verbatim value

section Guess

variable {value : String}

theorem guess_flag {b : Bool} (h : lowered value = shownFlag b) : guess value = .flag b := by
  have hne : ("false" : String) ≠ "true" := by decide
  cases b <;> simp [guess, h, shownFlag, hne]

section NotFlag

variable (hflag : ∀ b, lowered value ≠ shownFlag b)

include hflag

theorem guess_integer {n : Int} (h : Extended.integer? value.toList = some n) :
    guess value = .integer n := by
  have htrue : lowered value ≠ "true" := hflag true
  have hfalse : lowered value ≠ "false" := hflag false
  simp [guess, htrue, hfalse, h]

theorem guess_of_not_integer (hinteger : Extended.integer? value.toList = none) :
    guess value = ((Extended.ofText? value.toList).map Scalar.real).getD (.text value) := by
  have htrue : lowered value ≠ "true" := hflag true
  have hfalse : lowered value ≠ "false" := hflag false
  cases hreal : Extended.ofText? value.toList <;> simp [guess, htrue, hfalse, hinteger, hreal]

end NotFlag

theorem exists_delivers (value : String) : ∃ t, Delivers value t := by
  by_cases hflag : ∀ b, lowered value ≠ shownFlag b
  · cases hinteger : Extended.integer? value.toList with
    | some n => exact ⟨_, .integer hflag hinteger⟩
    | none =>
        cases hreal : Extended.ofText? value.toList with
        | some x => exact ⟨_, .real hflag hinteger hreal⟩
        | none => exact ⟨_, .text hflag hinteger hreal⟩
  · simp only [not_forall, not_not] at hflag
    obtain ⟨b, hb⟩ := hflag
    exact ⟨_, .flag b hb⟩

/-- There is one text that a value is delivered as, and it is what a text is taken from. -/
theorem text?_guess_eq_some_iff {t : String} :
    (guess value).text? = some t ↔ Delivers value t := by
  have hguess : ∀ {t}, Delivers value t → (guess value).text? = some t := by
    intro t h
    cases h with
    | flag b h => rw [guess_flag h]; rfl
    | integer hflag h => rw [guess_integer hflag h]; rfl
    | real hflag hinteger h => rw [guess_of_not_integer hflag hinteger, h]; rfl
    | text hflag hinteger hreal => rw [guess_of_not_integer hflag hinteger, hreal]; rfl
  refine ⟨fun h => ?_, hguess⟩
  obtain ⟨t', h'⟩ := exists_delivers value
  exact Option.some.inj ((hguess h').symm.trans h) ▸ h'

/-- What is delivered as it is has the text of what it is taken for, or is only a text. -/
theorem Delivers.verbatim {t : String} (h : Delivers value t) (ht : t = value) :
    Verbatim value := by
  cases h with
  | flag b h => exact ht ▸ .flag b
  | integer hflag h =>
      exact ht ▸ .integer (of_decide_eq_true (Option.filter_eq_some_iff.1 h).2)
  | @real x hflag hinteger h =>
      refine ht ▸ .real fun hzero => ?_
      rw [← ht, hzero] at hinteger
      cases hinteger
  | text hflag hinteger hreal => exact .text hflag hinteger hreal

end Guess

theorem not_flag_of_isNumeric {s : String} (h : ∀ c ∈ s.toList, IsNumeric c) (b : Bool) :
    lowered s ≠ shownFlag b := by
  rw [IsNumeric.lowered_eq h]
  rintro rfl
  cases b with
  | true => exact absurd (h 't' (by decide)).toNat_lt (by decide)
  | false => exact absurd (h 'f' (by decide)).toNat_lt (by decide)

theorem not_flag_plain (x : Extended) (b : Bool) : lowered x.plain ≠ shownFlag b := by
  cases x with
  | finite x => exact not_flag_of_isNumeric (Extended.isNumeric_plain x) b
  | infinite negative => cases negative <;> cases b <;> decide
  | notANumber => cases b <;> decide

theorem isNumeric_toString (n : Int) : ∀ c ∈ (toString n).toList, IsNumeric c := by
  have hdigits : ∀ c ∈ decimalDigits n.natAbs, IsNumeric c :=
    fun c hc => .inl (isDigit_of_mem_decimalDigits hc)
  rw [toList_toString]
  split_ifs
  · exact List.forall_mem_cons.2 ⟨.inr (.inl rfl), hdigits⟩
  · exact hdigits

theorem Verbatim.delivers {value : String} (h : Verbatim value) : Delivers value value := by
  cases h with
  | flag b => exact .flag b (by cases b <;> decide)
  | integer h =>
      exact .integer (not_flag_of_isNumeric (isNumeric_toString _)) (Extended.integer?_toString h)
  | @real x h =>
      cases hinteger : Extended.integer? x.plain.toList with
      | none => exact .real (not_flag_plain x) hinteger (Extended.ofText?_plain x)
      | some n =>
          -- A whole number is taken for an integer, which has the same text.
          have hdelivers : Delivers x.plain (toString n) := .integer (not_flag_plain x) hinteger
          rwa [Extended.integer?_plain h hinteger] at hdelivers
  | text hflag hinteger hreal => exact .text hflag hinteger hreal

/-- A value arrives as it is exactly if it is one of those that do. -/
theorem Delivers.eq_iff {value t : String} (h : Delivers value t) : t = value ↔ Verbatim value := by
  refine ⟨h.verbatim, fun hverbatim => ?_⟩
  have hself := text?_guess_eq_some_iff.2 hverbatim.delivers
  exact Option.some.inj ((text?_guess_eq_some_iff.2 h).symm.trans hself)

end Environment

end DeviceTwin
