import DeviceTwin.Suggestion.Best
import Mathlib.Data.List.Forall2

/-!
# The memories of a matcher

A matcher that is new has a blank memory, and each question leaves it with another one. These
are the memories that it may come to (`Matcher.Reached`), and nothing that is done with it leads
anywhere else (`Stays`).
-/

namespace DeviceTwin.Suggestion

/-- What stands in the second of two lists that correspond has something in the first one that it
corresponds to. -/
theorem exists_left_of_mem {α β : Type} {R : α → β → Prop} {as : List α} {bs : List β} {b : β}
    (h : List.Forall₂ R as bs) (hb : b ∈ bs) : ∃ a ∈ as, R a b := by
  induction h with
  | nil => exact absurd hb List.not_mem_nil
  | cons hfirst _ ih =>
      rcases List.mem_cons.1 hb with rfl | hb
      · exact ⟨_, List.mem_cons_self, hfirst⟩
      · exact (ih hb).imp fun a ha => ⟨List.mem_cons_of_mem _ ha.1, ha.2⟩

variable [Matcher]

/-- The memories that a matcher has after any number of questions. -/
inductive Matcher.Reached : Matcher.Memory → Prop
  | blank : Reached Matcher.blank
  | ask {memory : Matcher.Memory} (name pattern : String) (h : Reached memory) :
    Reached ((Matcher.ask name pattern).run memory).2

/-- What is done with a matcher leads from one of its memories to another. -/
def Stays {α : Type} (x : Asking α) : Prop :=
  ∀ memory, Matcher.Reached memory → Matcher.Reached (x.run memory).2

namespace Stays

variable {α β : Type}

theorem pure (a : α) : Stays (Pure.pure a : Asking α) :=
  fun _ h => h

theorem bind {x : Asking α} {f : α → Asking β} (hx : Stays x) (hf : ∀ a, Stays (f a)) :
    Stays (x >>= f) :=
  fun memory h => hf _ _ (hx memory h)

theorem mapM {f : α → Asking β} (h : ∀ a, Stays (f a)) (as : List α) : Stays (as.mapM f) := by
  induction as with
  | nil => exact pure []
  | cons a as ih =>
      rw [List.mapM_cons]
      exact (h a).bind fun _ => ih.bind fun _ => pure _

end Stays

theorem stays_ask (name pattern : String) : Stays (Matcher.ask name pattern) :=
  fun _ h => h.ask name pattern

theorem stays_compare (wanted candidate : String) : Stays (compare wanted candidate) :=
  (stays_ask _ _).bind fun _ => (stays_ask _ _).bind fun _ => .pure _

theorem stays_best? (wanted : String) (declared : List String) : Stays (best? wanted declared) :=
  Stays.mapM (stays_compare wanted) declared

end DeviceTwin.Suggestion
