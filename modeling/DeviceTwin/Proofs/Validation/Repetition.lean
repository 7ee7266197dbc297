import DeviceTwin.Proofs.Text.Names
import DeviceTwin.Validation.References
import Mathlib.Data.Finset.Card
import Mathlib.Data.List.Perm.Subperm

/-!
# Names that are declared again

A name that stands in a list more than once is told of once. It is told of where it comes up
the second time, so the names told of are in the order of their second occurrences, and a list
of which each name is told of has at least one name more for each of them.
-/

namespace DeviceTwin

namespace Text

variable {names : List String} {n : String}

/-- The place with `k` equal names before it is the one at which a name stands for the next
time. -/
theorem idxOfNth_count_take {i : ℕ} (h : names[i]? = some n) :
    names.idxOfNth n ((names.take i).count n) = i := by
  obtain ⟨hi, rfl⟩ := List.getElem?_eq_some_iff.1 h
  rw [← List.countBefore_eq_count_take]
  exact List.idxOfNth_countBefore_of_lt_length_of_beq (beq_self_eq_true _)

theorem zipIdx_pairwise (names : List String) :
    names.zipIdx.Pairwise fun e e' => e.2 < e'.2 := by
  rw [← List.pairwise_map (f := Prod.snd), List.zipIdx_map_snd]
  exact List.pairwise_lt_range'

/-- Names are told of in the order in which they stand for the second time. -/
theorem repeated_pairwise (names : List String) :
    (repeated names).Pairwise fun a b => names.idxOfNth a 1 < names.idxOfNth b 1 := by
  have hplace : ∀ e ∈ names.zipIdx.filter fun e => (names.take e.2).count e.1 = 1,
      names.idxOfNth e.1 1 = e.2 := by
    intro e he
    obtain ⟨hmem, hcount⟩ := List.mem_filter.1 he
    have hone : (names.take e.2).count e.1 = 1 := of_decide_eq_true hcount
    rw [← hone]
    exact idxOfNth_count_take (List.mem_zipIdx_iff_getElem?.1 hmem)
  rw [repeated_eq_secondOccurrences, secondOccurrences, List.pairwise_map]
  refine ((zipIdx_pairwise names).filter _).imp_of_mem fun {e e'} he he' hlt => ?_
  rwa [hplace e he, hplace e' he']

/-- Each name, and each one that is repeated once more, can be taken from the list. -/
theorem dedup_append_repeated_subperm (names : List String) :
    (names.dedup ++ repeated names).Subperm names := by
  refine List.subperm_ext_iff.2 fun n hn => ?_
  have hmem : n ∈ names := by
    rcases List.mem_append.1 hn with h | h
    · exact List.mem_dedup.1 h
    · exact List.count_pos_iff.1 (by have := mem_repeated.1 h; omega)
  rw [List.count_append, List.count_dedup, if_pos hmem]
  by_cases hrepeated : n ∈ repeated names
  · rw [List.count_eq_one_of_mem (nodup_repeated names) hrepeated]
    exact mem_repeated.1 hrepeated
  · rw [List.count_eq_zero.2 hrepeated]
    exact List.count_pos_iff.2 hmem

theorem length_repeated_add_card_le (names : List String) :
    (repeated names).length + names.toFinset.card ≤ names.length := by
  have hle := (dedup_append_repeated_subperm names).length_le
  rwa [List.length_append, ← List.card_toFinset, Nat.add_comm] at hle

end Text

namespace Validation

/-- There is one defect for each name that occurs at least twice, and none for another one, in
the order in which these names occur for the second time. So there is none if and only if the
names differ from each other, and there are at most as many as there are things beyond their
different names. -/
theorem duplicateNames_exact {α : Type} (name : α → String) (kind : ElementKind)
    (things : List α) :
    (∃ told : List String,
      duplicateNames kind (things.map name) = told.map (.duplicateName kind) ∧
        told.Nodup ∧ (∀ n, n ∈ told ↔ 2 ≤ (things.map name).count n) ∧
        told.Pairwise fun a b =>
          (things.map name).idxOfNth a 1 < (things.map name).idxOfNth b 1) ∧
    (duplicateNames kind (things.map name) = [] ↔ (things.map name).Nodup) ∧
    (duplicateNames kind (things.map name)).length + (things.map name).toFinset.card ≤
      things.length := by
  refine ⟨⟨Text.repeated (things.map name), rfl, Text.nodup_repeated _, fun n => Text.mem_repeated,
    Text.repeated_pairwise _⟩, ?_, ?_⟩
  · rw [duplicateNames, List.map_eq_nil_iff, Text.repeated_eq_nil_iff]
  · have hle := Text.length_repeated_add_card_le (things.map name)
    rw [List.length_map] at hle
    rwa [duplicateNames, List.length_map]

/-- Of three names that are repeated, the one that is the first to come up again is told of
first. -/
example : duplicateNames .event ["cold", "warm", "off", "warm", "off", "warm", "cold", "on"] =
    [.duplicateName .event "warm", .duplicateName .event "off", .duplicateName .event "cold"] := by
  decide

end Validation

end DeviceTwin
