import DeviceTwin.Text.Names
import Mathlib.Data.List.Nodup

/-!
# Laws of lists of names

`distinct` and `repeated` carry what they have seen along, so their laws are
proved for any such list first and read at the empty one. Order of first
occurrence is said by `List.idxOf`, the place at which a name stands first.

`secondOccurrences names` tells the repeated names without a memory: a name stands
there once for the place with exactly one equal name before it.
-/

namespace DeviceTwin.Text

theorem mem_distinctBut {n : String} {names : List String} :
    ∀ {seen : List String}, n ∈ distinctBut seen names ↔ n ∈ names ∧ n ∉ seen := by
  induction names with
  | nil => simp [distinctBut]
  | cons m names ih =>
      intro seen
      by_cases hm : m ∈ seen
      · rw [distinctBut, if_pos (List.contains_iff_mem.2 hm), ih, List.mem_cons]
        constructor
        · exact fun h => ⟨.inr h.1, h.2⟩
        · rintro ⟨rfl | h, hn⟩
          · exact absurd hm hn
          · exact ⟨h, hn⟩
      · rw [distinctBut, if_neg (by simpa using hm), List.mem_cons, ih, List.mem_cons,
          List.mem_cons, not_or]
        constructor
        · rintro (rfl | ⟨h, -, hn⟩)
          · exact ⟨.inl rfl, hm⟩
          · exact ⟨.inr h, hn⟩
        · rintro ⟨rfl | h, hn⟩
          · exact .inl rfl
          · by_cases hnm : n = m
            · exact .inl hnm
            · exact .inr ⟨h, hnm, hn⟩

@[simp] theorem mem_distinct {n : String} {names : List String} :
    n ∈ distinct names ↔ n ∈ names := by
  simp [distinct, mem_distinctBut]

/-- Names are kept in the order in which they stand first. -/
theorem distinctBut_pairwise (names : List String) :
    ∀ seen : List String,
      (distinctBut seen names).Pairwise fun a b => names.idxOf a < names.idxOf b := by
  induction names with
  | nil => exact fun _ => List.Pairwise.nil
  | cons m names ih =>
      intro seen
      -- Behind the head every index moves up by one, as no name kept there is the head.
      have shift : ∀ seen', m ∈ seen' → (distinctBut seen' names).Pairwise
          fun a b => (m :: names).idxOf a < (m :: names).idxOf b := by
        intro seen' hm
        refine (ih seen').imp_of_mem ?_
        intro a b ha hb hab
        have ha' : m ≠ a := fun h => (mem_distinctBut.1 ha).2 (h ▸ hm)
        have hb' : m ≠ b := fun h => (mem_distinctBut.1 hb).2 (h ▸ hm)
        rw [List.idxOf_cons_ne names ha', List.idxOf_cons_ne names hb']
        exact Nat.succ_lt_succ hab
      by_cases hm : m ∈ seen
      · rw [distinctBut, if_pos (List.contains_iff_mem.2 hm)]
        exact shift seen hm
      · rw [distinctBut, if_neg (by simpa using hm), List.pairwise_cons]
        refine ⟨?_, shift (m :: seen) List.mem_cons_self⟩
        intro b hb
        have hb' : m ≠ b := fun h => (mem_distinctBut.1 hb).2 (h ▸ List.mem_cons_self)
        rw [List.idxOf_cons_self, List.idxOf_cons_ne names hb']
        exact Nat.succ_pos _

theorem distinct_pairwise (names : List String) :
    (distinct names).Pairwise fun a b => names.idxOf a < names.idxOf b :=
  distinctBut_pairwise names []

theorem nodup_distinct (names : List String) : (distinct names).Nodup :=
  (distinct_pairwise names).imp fun h => by rintro rfl; exact Nat.lt_irrefl _ h

/-- What is kept depends on the names seen only as far as they are met again. -/
theorem distinctBut_congr {names : List String} :
    ∀ {seen seen' : List String}, (∀ n ∈ names, n ∈ seen ↔ n ∈ seen') →
      distinctBut seen names = distinctBut seen' names := by
  induction names with
  | nil => exact fun _ => rfl
  | cons m names ih =>
      intro seen seen' h
      have hm : m ∈ seen ↔ m ∈ seen' := h m List.mem_cons_self
      have hrest : ∀ n ∈ names, n ∈ seen ↔ n ∈ seen' :=
        fun n hn => h n (List.mem_cons_of_mem m hn)
      have hcons : ∀ n ∈ names, n ∈ m :: seen ↔ n ∈ m :: seen' := by
        intro n hn
        rw [List.mem_cons, List.mem_cons, hrest n hn]
      by_cases hs : m ∈ seen
      · rw [distinctBut, distinctBut, if_pos (List.contains_iff_mem.2 hs),
          if_pos (List.contains_iff_mem.2 (hm.1 hs)), ih hrest]
      · rw [distinctBut, distinctBut, if_neg (by simpa using hs),
          if_neg (by simpa using fun h' => hs (hm.2 h')), ih hcons]

theorem distinctBut_filter (keep : String → Bool) (names : List String) :
    ∀ seen : List String,
      distinctBut seen (names.filter keep) = (distinctBut seen names).filter keep := by
  induction names with
  | nil => exact fun _ => rfl
  | cons m names ih =>
      intro seen
      by_cases hk : keep m
      · rw [List.filter_cons_of_pos hk]
        by_cases hs : m ∈ seen
        · rw [distinctBut, distinctBut, if_pos (List.contains_iff_mem.2 hs),
            if_pos (List.contains_iff_mem.2 hs), ih]
        · rw [distinctBut, distinctBut, if_neg (by simpa using hs),
            if_neg (by simpa using hs), List.filter_cons_of_pos hk, ih]
      · rw [List.filter_cons_of_neg hk]
        by_cases hs : m ∈ seen
        · rw [distinctBut, if_pos (List.contains_iff_mem.2 hs), ih]
        · rw [distinctBut, if_neg (by simpa using hs), List.filter_cons_of_neg hk, ← ih]
          apply distinctBut_congr
          intro n hn
          have hne : n ≠ m := by
            rintro rfl
            exact hk (List.of_mem_filter hn)
          simp [hne]

theorem distinct_filter (keep : String → Bool) (names : List String) :
    distinct (names.filter keep) = (distinct names).filter keep :=
  distinctBut_filter keep names []

/-- What is kept of a row of names is kept again in front of more names. -/
theorem distinctBut_append {names names' : List String} :
    ∀ {seen : List String}, distinctBut seen (names ++ names') =
      distinctBut seen names ++ distinctBut (names ++ seen) names' := by
  induction names with
  | nil => exact rfl
  | cons m names ih =>
      intro seen
      by_cases hm : m ∈ seen
      · rw [List.cons_append, distinctBut, distinctBut, if_pos (List.contains_iff_mem.2 hm),
          if_pos (List.contains_iff_mem.2 hm), ih]
        refine congrArg (_ ++ ·) (distinctBut_congr fun n _ => ?_)
        rw [List.cons_append, List.mem_cons, List.mem_append]
        exact ⟨.inr, fun h => h.elim (fun h => .inr (h ▸ hm)) id⟩
      · rw [List.cons_append, distinctBut, distinctBut, if_neg (by simpa using hm),
          if_neg (by simpa using hm), ih, List.cons_append]
        refine congrArg (_ :: _ ++ ·) (distinctBut_congr fun n _ => ?_)
        simp only [List.mem_append, List.mem_cons]
        exact or_left_comm.trans or_assoc.symm

theorem distinct_append_singleton (names : List String) (n : String) :
    distinct (names ++ [n]) = if n ∈ names then distinct names else distinct names ++ [n] := by
  rw [distinct, distinctBut_append, List.append_nil]
  by_cases h : n ∈ names <;> simp [distinctBut, distinct, h]

/-- The names of a list, each where exactly one equal name stands before it. -/
def secondOccurrences (names : List String) : List String :=
  (names.zipIdx.filter fun e => (names.take e.2).count e.1 = 1).map (·.1)

/-- A memory of the names that occur at least `k` times in `past`. -/
def Remembers (k : Nat) (past memory : List String) : Prop :=
  ∀ n, n ∈ memory ↔ k ≤ past.count n

namespace Remembers

variable {k : Nat} {past memory : List String} {m : String}

theorem start (hk : 0 < k) : Remembers k [] [] := by
  intro n
  simp only [List.not_mem_nil, List.count_nil, false_iff]
  omega

theorem unchanged (h : Remembers k past memory) (hm : past.count m + 1 ≠ k) :
    Remembers k (past ++ [m]) memory := by
  intro n
  rw [h n, List.count_append, List.count_singleton]
  by_cases hn : m = n
  · subst hn
    simp only [beq_self_eq_true, if_true]
    omega
  · simp [hn]

theorem added (h : Remembers k past memory) (hm : past.count m + 1 = k) :
    Remembers k (past ++ [m]) (m :: memory) := by
  intro n
  rw [List.mem_cons, h n, List.count_append, List.count_singleton]
  by_cases hn : m = n
  · subst hn
    simp only [beq_self_eq_true, if_true, true_or, true_iff]
    omega
  · simp [hn, Ne.symm hn]

end Remembers

/-- Behind the names `past`, the names told of are those whose second occurrence is
still to come. -/
theorem repeatedBut_eq (names : List String) :
    ∀ past seen told : List String, Remembers 1 past seen → Remembers 2 past told →
      repeatedBut seen told names =
        ((names.zipIdx past.length).filter fun e =>
          ((past ++ names).take e.2).count e.1 = 1).map (·.1) := by
  induction names with
  | nil => exact fun _ _ _ _ _ => rfl
  | cons m names ih =>
      intro past seen told hseen htold
      have hpast : past ++ m :: names = (past ++ [m]) ++ names := by simp
      have hlength : past.length + 1 = (past ++ [m]).length := by simp
      rw [List.zipIdx_cons, List.filter_cons, List.take_left, hpast, hlength]
      by_cases h₁ : m ∈ seen
      · have hone : 1 ≤ past.count m := (hseen m).1 h₁
        have hseen' := hseen.unchanged (m := m) (by omega)
        by_cases h₂ : m ∈ told
        · have htwo : 2 ≤ past.count m := (htold m).1 h₂
          have htold' := htold.unchanged (m := m) (by omega)
          have hmany : ¬ past.count m = 1 := by omega
          rw [repeatedBut, if_neg (by simpa using h₁), if_pos (List.contains_iff_mem.2 h₂),
            if_neg (by simpa using hmany)]
          exact ih _ _ _ hseen' htold'
        · have htwo : ¬ 2 ≤ past.count m := mt (htold m).2 h₂
          have hexact : past.count m = 1 := by omega
          have htold' := htold.added (m := m) (by omega)
          rw [repeatedBut, if_neg (by simpa using h₁), if_neg (by simpa using h₂),
            if_pos (by simpa using hexact), List.map_cons]
          exact congrArg (m :: ·) (ih _ _ _ hseen' htold')
      · have hnone : ¬ 1 ≤ past.count m := mt (hseen m).2 h₁
        have hseen' := hseen.added (m := m) (by omega)
        have htold' := htold.unchanged (m := m) (by omega)
        have hexact : ¬ past.count m = 1 := by omega
        rw [repeatedBut, if_pos (by simpa using h₁), if_neg (by simpa using hexact)]
        exact ih _ _ _ hseen' htold'

theorem repeated_eq_secondOccurrences (names : List String) :
    repeated names = secondOccurrences names :=
  repeatedBut_eq names [] [] [] (.start (by omega)) (.start (by omega))

/-- Told of is what was not told of before and occurs twice, the names seen before
counting once. -/
theorem mem_repeatedBut {n : String} {names : List String} :
    ∀ {seen told : List String}, told ⊆ seen →
      (n ∈ repeatedBut seen told names ↔
        n ∉ told ∧ 2 ≤ names.count n + if n ∈ seen then 1 else 0) := by
  induction names with
  | nil =>
      intro seen told _
      simp only [repeatedBut, List.not_mem_nil, List.count_nil, false_iff, not_and]
      intro _
      split <;> omega
  | cons m names ih =>
      intro seen told hsub
      rw [List.count_cons]
      by_cases h₁ : m ∈ seen
      · by_cases h₂ : m ∈ told
        · rw [repeatedBut, if_neg (by simpa using h₁), if_pos (List.contains_iff_mem.2 h₂),
            ih hsub]
          refine and_congr_right fun hn => ?_
          have hne : m ≠ n := fun h => hn (h ▸ h₂)
          simp [hne]
        · have hsub' : m :: told ⊆ seen := List.cons_subset.2 ⟨h₁, hsub⟩
          rw [repeatedBut, if_neg (by simpa using h₁), if_neg (by simpa using h₂),
            List.mem_cons, ih hsub']
          by_cases hne : n = m
          · subst hne
            simp [h₁, h₂]
          · simp [hne, Ne.symm hne]
      · have hsub' : told ⊆ m :: seen := fun x hx => List.mem_cons_of_mem m (hsub hx)
        rw [repeatedBut, if_pos (by simpa using h₁), ih hsub']
        by_cases hne : n = m
        · subst hne
          simp [h₁]
        · simp [hne, Ne.symm hne]

@[simp] theorem mem_repeated {n : String} {names : List String} :
    n ∈ repeated names ↔ 2 ≤ names.count n := by
  simp [repeated, mem_repeatedBut]

theorem nodup_repeatedBut (names : List String) :
    ∀ seen told : List String,
      (repeatedBut seen told names).Nodup ∧ ∀ n ∈ repeatedBut seen told names, n ∉ told := by
  induction names with
  | nil => exact fun _ _ => ⟨List.nodup_nil, fun _ hn => absurd hn List.not_mem_nil⟩
  | cons m names ih =>
      intro seen told
      by_cases h₁ : m ∈ seen
      · by_cases h₂ : m ∈ told
        · rw [repeatedBut, if_neg (by simpa using h₁), if_pos (List.contains_iff_mem.2 h₂)]
          exact ih seen told
        · obtain ⟨hnodup, hfresh⟩ := ih seen (m :: told)
          rw [repeatedBut, if_neg (by simpa using h₁), if_neg (by simpa using h₂)]
          refine ⟨List.nodup_cons.2 ⟨fun h => hfresh m h List.mem_cons_self, hnodup⟩, ?_⟩
          refine List.forall_mem_cons.2 ⟨h₂, fun n hn hn' => ?_⟩
          exact hfresh n hn (List.mem_cons_of_mem m hn')
      · rw [repeatedBut, if_pos (by simpa using h₁)]
        exact ih (m :: seen) told

theorem nodup_repeated (names : List String) : (repeated names).Nodup :=
  (nodup_repeatedBut names [] []).1

/-- In another order of the names the same ones are repeated. -/
theorem repeated_perm {names names' : List String} (h : names.Perm names') :
    (repeated names).Perm (repeated names') := by
  refine (List.perm_ext_iff_of_nodup (nodup_repeated _) (nodup_repeated _)).2 fun n => ?_
  rw [mem_repeated, mem_repeated, h.count_eq]

theorem repeated_eq_nil_iff (names : List String) : repeated names = [] ↔ names.Nodup := by
  rw [List.eq_nil_iff_forall_not_mem, List.nodup_iff_count_le_one]
  refine forall_congr' fun n => ?_
  rw [mem_repeated]
  omega

end DeviceTwin.Text
