import DeviceTwin.Proofs.Suggestion.Fit
import DeviceTwin.Proofs.Text.Octets
import DeviceTwin.Suggestion.Best
import Mathlib

/-!
# The best of the declared names

Of two scored names the one with the higher score is preferred and, of equal scores, the
smaller one. This is a linear order, so the best of a list is told by the members of the
list alone (`bestOf_eq_some_iff`). What is suggested depends neither on the order nor on the
repetition of what the matcher said (`bestCompared?_congr`), but what it said may.

`Comparison.likeness` is the better one of the two scores of a comparison, having no score
being less than any score.
-/

namespace DeviceTwin.Suggestion

/-! ### Scored names -/

/-- No other scored name of the two is better. -/
def NoWorse (a b : Int × String) : Prop :=
  b.1 < a.1 ∨ b.1 = a.1 ∧ a.2 ≤ b.2

theorem isBetter_eq_false_iff {a b : Int × String} : isBetter b a = false ↔ NoWorse a b := by
  rw [isBetter, Bool.or_eq_false_iff, Bool.and_eq_false_iff, decide_eq_false_iff_not,
    beq_eq_false_iff_ne, decide_eq_false_iff_not, String.not_lt]
  constructor
  · rintro ⟨hle, hne | h⟩
    · exact .inl (by omega)
    · exact (lt_or_eq_of_le (not_lt.1 hle)).imp_right fun heq => ⟨heq, h⟩
  · rintro (hlt | ⟨heq, h⟩)
    · exact ⟨by omega, .inl (by omega)⟩
    · exact ⟨by omega, .inr h⟩

namespace NoWorse

variable {a b c : Int × String}

theorem refl (a : Int × String) : NoWorse a a :=
  .inr ⟨rfl, String.le_refl _⟩

theorem trans (hab : NoWorse a b) (hbc : NoWorse b c) : NoWorse a c := by
  rcases hab with hab | ⟨hab, h⟩
  · rcases hbc with hbc | ⟨hbc, -⟩ <;> exact .inl (by omega)
  · rcases hbc with hbc | ⟨hbc, h'⟩
    · exact .inl (by omega)
    · exact .inr ⟨hbc.trans hab, String.le_trans h h'⟩

theorem antisymm (hab : NoWorse a b) (hba : NoWorse b a) : a = b := by
  rcases hab with hab | ⟨hab, h⟩
  · rcases hba with hba | ⟨hba, -⟩ <;> omega
  · rcases hba with hba | ⟨-, h'⟩
    · omega
    · exact Prod.ext hab.symm (String.le_antisymm h h')

theorem of_isBetter (h : isBetter a b = true) : NoWorse a b := by
  rw [isBetter, Bool.or_eq_true, Bool.and_eq_true, decide_eq_true_eq, beq_iff_eq,
    decide_eq_true_eq] at h
  exact h.imp_right fun h => ⟨h.1.symm, String.not_lt.1 (String.lt_asymm h.2)⟩

end NoWorse

theorem bestOf_eq_none_iff {as : List (Int × String)} : bestOf as = none ↔ as = [] := by
  cases as with
  | nil => simp [bestOf]
  | cons a as =>
      rw [bestOf]
      split
      · simp
      · split <;> simp

theorem bestOf_spec {as : List (Int × String)} {a : Int × String} (h : bestOf as = some a) :
    a ∈ as ∧ ∀ b ∈ as, NoWorse a b := by
  induction as generalizing a with
  | nil => exact nomatch h
  | cons c as ih =>
      cases hrest : bestOf as with
      | none =>
          obtain rfl : c = a := by simpa [bestOf, hrest] using h
          rw [bestOf_eq_none_iff.1 hrest]
          exact ⟨List.mem_cons_self, List.forall_mem_singleton.2 (.refl c)⟩
      | some b =>
          obtain ⟨hb, hbest⟩ := ih hrest
          by_cases hbc : isBetter b c
          · obtain rfl : b = a := by simpa [bestOf, hrest, hbc] using h
            exact ⟨List.mem_cons_of_mem c hb,
              List.forall_mem_cons.2 ⟨.of_isBetter hbc, hbest⟩⟩
          · obtain rfl : c = a := by simpa [bestOf, hrest, hbc] using h
            have hcb : NoWorse c b := isBetter_eq_false_iff.1 (Bool.eq_false_iff.2 hbc)
            exact ⟨List.mem_cons_self,
              List.forall_mem_cons.2 ⟨.refl c, fun d hd => hcb.trans (hbest d hd)⟩⟩

theorem bestOf_eq_some_iff {as : List (Int × String)} {a : Int × String} :
    bestOf as = some a ↔ a ∈ as ∧ ∀ b ∈ as, NoWorse a b := by
  refine ⟨bestOf_spec, fun ⟨ha, hbest⟩ => ?_⟩
  cases h : bestOf as with
  | none => exact absurd ha (by rw [bestOf_eq_none_iff.1 h]; exact List.not_mem_nil)
  | some b =>
      obtain ⟨hb, hbest'⟩ := bestOf_spec h
      rw [(hbest b hb).antisymm (hbest' a ha)]

/-! ### Likeness -/

namespace Comparison

end Comparison

section Best

variable {n : String} {cs cs' : List Comparison}

theorem mem_scored {score : Int} :
    (score, n) ∈ cs.filterMap (fun c => c.score?.map fun score => (score, c.candidate)) ↔
      ∃ c ∈ cs, c.candidate = n ∧ c.score? = some score := by
  simp only [List.mem_filterMap, Option.map_eq_some_iff, Prod.mk.injEq]
  constructor
  · rintro ⟨c, hc, _, hscore, rfl, rfl⟩
    exact ⟨c, hc, rfl, hscore⟩
  · rintro ⟨c, hc, rfl, hscore⟩
    exact ⟨c, hc, score, hscore, rfl, rfl⟩

theorem bestCompared?_eq_some_iff_scored :
    bestCompared? cs = some n ↔
      ∃ score, (∃ c ∈ cs, c.candidate = n ∧ c.score? = some score) ∧
        ∀ other name, (∃ d ∈ cs, d.candidate = name ∧ d.score? = some other) →
          NoWorse (score, n) (other, name) := by
  simp only [bestCompared?, Option.map_eq_some_iff, bestOf_eq_some_iff, Prod.exists, Prod.forall,
    mem_scored, exists_eq_right]

/-- Neither the order of the comparisons nor their repetition matters. -/
theorem bestCompared?_congr (h : ∀ c, c ∈ cs ↔ c ∈ cs') : bestCompared? cs = bestCompared? cs' :=
  Option.ext fun n => by
    rw [bestCompared?_eq_some_iff_scored, bestCompared?_eq_some_iff_scored]
    simp only [h]

end Best

/-! ### What a matcher says -/

section Ask

variable [Matcher] {wanted : String} {declared : List String} {memory : Matcher.Memory}

/-- What may be said of a declared name: what is answered out of one of the memories. -/
def Says (wanted name : String) (c : Comparison) : Prop :=
  ∃ memory, Matcher.Reached memory ∧ c = ((compare wanted name).run memory).1

theorem Says.candidate_eq {name : String} {c : Comparison} (h : Says wanted name c) :
    c.candidate = name := by
  obtain ⟨_, _, rfl⟩ := h
  rfl

/-- Something is said of each declared name, one after the other. -/
theorem says_compareAll (h : Matcher.Reached memory) (wanted : String) (declared : List String) :
    List.Forall₂ (Says wanted) declared ((compareAll wanted declared).run memory).1 := by
  induction declared generalizing memory with
  | nil => exact .nil
  | cons name declared ih =>
      rw [compareAll, List.mapM_cons]
      exact .cons ⟨memory, h, rfl⟩ (ih (stays_compare wanted name memory h))

theorem map_candidate_compareAll (h : Matcher.Reached memory) :
    ((compareAll wanted declared).run memory).1.map Comparison.candidate = declared := by
  have hnames : List.Forall₂ Eq declared
      (((compareAll wanted declared).run memory).1.map Comparison.candidate) :=
    List.forall₂_map_right_iff.2
      ((says_compareAll h wanted declared).imp fun _ _ htold => htold.candidate_eq.symm)
  rw [List.forall₂_eq_eq_eq] at hnames
  exact hnames.symm

end Ask

end DeviceTwin.Suggestion
