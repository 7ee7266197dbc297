import DeviceTwin.Text.Split
import Mathlib.Logic.Basic

/-!
# Laws of cutting a text

`cut` finds the one way to write a text as what stands before the first separator and
what stands behind it. `pieces` and `join` are inverse to each other, `pieces` being
the one that needs pieces free of the separator.
-/

namespace DeviceTwin.Text

variable {sep : Char}

/-- What stands before and behind the place where a row of a class of items ends. -/
theorem takeWhile_append_stop {α : Type} {p : α → Bool} {a s : List α} (h : ∀ c ∈ a, p c = true)
    (hstop : ∀ c, s.head? = some c → p c = false) :
    (a ++ s).takeWhile p = a ∧ (a ++ s).dropWhile p = s := by
  rw [List.takeWhile_append_of_pos h, List.dropWhile_append_of_pos h]
  cases s with
  | nil => simp
  | cons c s =>
      have hc : ¬ p c = true := by simp [hstop c rfl]
      rw [List.takeWhile_cons_of_neg hc, List.dropWhile_cons_of_neg hc, List.append_nil]
      exact ⟨rfl, rfl⟩

theorem cut_eq_some_iff {s : List Char} :
    ∀ {a b : List Char}, cut sep s = some (a, b) ↔ s = a ++ sep :: b ∧ sep ∉ a := by
  induction s with
  | nil => simp [cut]
  | cons c s ih =>
      intro a b
      by_cases hc : c = sep
      · subst hc
        rw [cut, if_pos rfl]
        constructor
        · rintro ⟨⟩
          exact ⟨rfl, List.not_mem_nil⟩
        · rintro ⟨heq, hmem⟩
          cases a with
          | nil =>
              obtain ⟨-, rfl⟩ := List.cons.inj heq
              rfl
          | cons x a =>
              obtain ⟨rfl, -⟩ := List.cons.inj heq
              exact absurd List.mem_cons_self hmem
      · rw [cut, if_neg hc, Option.map_eq_some_iff]
        constructor
        · rintro ⟨⟨x, y⟩, hxy, ⟨⟩⟩
          obtain ⟨rfl, hmem⟩ := ih.1 hxy
          refine ⟨rfl, ?_⟩
          rw [List.mem_cons, not_or]
          exact ⟨Ne.symm hc, hmem⟩
        · rintro ⟨heq, hmem⟩
          cases a with
          | nil => exact absurd (List.cons.inj heq).1 hc
          | cons x a =>
              obtain ⟨rfl, rfl⟩ := List.cons.inj heq
              exact ⟨(a, b), ih.2 ⟨rfl, fun h => hmem (List.mem_cons_of_mem _ h)⟩, rfl⟩

theorem cut_append {a b : List Char} (h : sep ∉ a) : cut sep (a ++ sep :: b) = some (a, b) :=
  cut_eq_some_iff.2 ⟨rfl, h⟩

/-- A first piece without a separator is taken off whole. -/
theorem cut_eq_none_iff {s : List Char} : cut sep s = none ↔ sep ∉ s := by
  induction s with
  | nil => simp [cut]
  | cons c s ih =>
      by_cases hc : c = sep
      · simp [cut, hc]
      · rw [cut, if_neg hc, Option.map_eq_none_iff, ih, List.mem_cons, not_or,
          and_iff_right (Ne.symm hc)]

theorem afterBeginning_eq_none_iff {b s : List Char} :
    afterBeginning b s = none ↔ ¬ b <+: s := by
  rw [Option.eq_none_iff_forall_ne_some]
  constructor
  · rintro h ⟨r, hr⟩
    exact h r (afterBeginning_eq_some_iff.2 hr.symm)
  · intro h r hr
    exact h ⟨r, (afterBeginning_eq_some_iff.1 hr).symm⟩

theorem pieces_append {p s : List Char} (h : sep ∉ p) :
    pieces sep (p ++ sep :: s) = p :: pieces sep s := by
  induction p with
  | nil => exact pieces_cons_self sep s
  | cons c p ih =>
      obtain ⟨hc, hp⟩ := not_or.1 (mt List.mem_cons.2 h)
      rw [List.cons_append, pieces, if_neg (Ne.symm hc), ih hp]

theorem pieces_of_not_mem {p : List Char} (h : sep ∉ p) : pieces sep p = [p] := by
  induction p with
  | nil => rfl
  | cons c p ih =>
      obtain ⟨hc, hp⟩ := not_or.1 (mt List.mem_cons.2 h)
      rw [pieces, if_neg (Ne.symm hc), ih hp]

/-- A separator cuts a text in two, wherever it stands. -/
theorem pieces_append_cons (s t : List Char) :
    pieces sep (s ++ sep :: t) = pieces sep s ++ pieces sep t := by
  induction s with
  | nil => rw [List.nil_append, pieces_cons_self, pieces_nil, List.singleton_append]
  | cons c s ih =>
      by_cases hc : c = sep
      · rw [hc, List.cons_append, pieces_cons_self, pieces_cons_self, ih, List.cons_append]
      · cases hs : pieces sep s with
        | nil => exact absurd hs (pieces_ne_nil sep s)
        | cons q qs => rw [List.cons_append, pieces, pieces, if_neg hc, if_neg hc, ih, hs]; rfl

theorem pieces_join {ps : List (List Char)} (hne : ps ≠ []) (h : ∀ p ∈ ps, sep ∉ p) :
    pieces sep (join sep ps) = ps := by
  induction ps with
  | nil => exact absurd rfl hne
  | cons p ps ih =>
      obtain ⟨hp, hps⟩ := List.forall_mem_cons.1 h
      cases ps with
      | nil => exact pieces_of_not_mem hp
      | cons q ps =>
          rw [join_cons_cons, pieces_append hp, ih (List.cons_ne_nil q ps) hps]

theorem toList_interpose {text : String} (h : text.toList = [sep]) (ss : List String) :
    (interpose text ss).toList = join sep (ss.map String.toList) := by
  induction ss with
  | nil => rfl
  | cons s ss ih =>
      cases ss with
      | nil => rfl
      | cons t ss =>
          rw [List.map_cons, List.map_cons, join_cons_cons, ← List.map_cons, ← ih]
          change (s ++ text ++ interpose text (t :: ss)).toList = _
          simp [h]

theorem cutLast_of_not_mem {s : List Char} (h : sep ∉ s) : cutLast sep s = none := by
  induction s with
  | nil => rfl
  | cons c s ih =>
      obtain ⟨hc, hs⟩ := not_or.1 (mt List.mem_cons.2 h)
      rw [cutLast, ih hs, if_neg (Ne.symm hc)]

theorem cutLast_append {b : List Char} (h : sep ∉ b) (a : List Char) :
    cutLast sep (a ++ sep :: b) = some (a, b) := by
  induction a with
  | nil => rw [List.nil_append, cutLast, cutLast_of_not_mem h, if_pos rfl]
  | cons c a ih => rw [List.cons_append, cutLast, ih]

theorem not_mem_of_cutLast {s : List Char} (h : cutLast sep s = none) : sep ∉ s := by
  induction s with
  | nil => exact List.not_mem_nil
  | cons c s ih =>
      rw [cutLast] at h
      cases hs : cutLast sep s with
      | some ab => simp [hs] at h
      | none =>
          have hc : c ≠ sep := by
            rintro rfl
            simp [hs] at h
          exact mt List.mem_cons.1 (not_or.2 ⟨Ne.symm hc, ih hs⟩)

theorem cutLast_eq_some_iff {s a b : List Char} :
    cutLast sep s = some (a, b) ↔ s = a ++ sep :: b ∧ sep ∉ b := by
  refine ⟨fun h => ?_, fun ⟨hs, hb⟩ => hs ▸ cutLast_append hb a⟩
  induction s generalizing a with
  | nil => exact nomatch h
  | cons c s ih =>
      rw [cutLast] at h
      cases hs : cutLast sep s with
      | some ab =>
          rw [hs] at h
          cases h
          obtain ⟨heq, hb⟩ := ih hs
          exact ⟨congrArg (c :: ·) heq, hb⟩
      | none =>
          by_cases hc : c = sep
          · simp only [hs, if_pos hc, Option.some.injEq, Prod.mk.injEq] at h
            obtain ⟨rfl, rfl⟩ := h
            exact ⟨congrArg (· :: s) hc, not_mem_of_cutLast hs⟩
          · simp [hs, hc] at h

theorem mem_join {c : Char} :
    ∀ {ps : List (List Char)}, c ∈ join sep ps → c = sep ∨ ∃ p ∈ ps, c ∈ p
  | [], h => absurd h List.not_mem_nil
  | [p], h => .inr ⟨p, List.mem_cons_self, h⟩
  | p :: q :: ps, h => by
      rw [join_cons_cons, List.mem_append, List.mem_cons] at h
      rcases h with h | h | h
      · exact .inr ⟨p, List.mem_cons_self, h⟩
      · exact .inl h
      · rcases mem_join h with h | ⟨r, hr, hc⟩
        · exact .inl h
        · exact .inr ⟨r, List.mem_cons_of_mem p hr, hc⟩

/-! ### Double separators -/

theorem doublePieces_ne_nil (s : List Char) : doublePieces sep s ≠ [] := by
  fun_cases doublePieces sep s <;> simp

/-- A map that keeps the separators apart from the other characters can be applied to the
pieces. -/
theorem doublePieces_map {f : Char → Char} (hf : ∀ c, f c = sep ↔ c = sep) (s : List Char) :
    doublePieces sep (s.map f) = (doublePieces sep s).map (List.map f) := by
  induction s using doublePieces.induct sep with
  | case1 => rfl
  | case2 c => rfl
  | case3 c d s h ih => simp [doublePieces, hf, h, ih]
  | case4 c d s h hnil ih => exact absurd hnil (doublePieces_ne_nil _)
  | case5 c d s h p ps hp ih =>
      have hrest : doublePieces sep (f d :: s.map f) = p.map f :: ps.map (List.map f) := by
        rw [← List.map_cons, ih, hp, List.map_cons]
      simp [doublePieces, hf, h, hp, hrest]

/-- A first piece without a separator is taken off whole. -/
theorem doublePieces_append {p : List Char} (h : sep ∉ p) (s : List Char) :
    doublePieces sep (p ++ sep :: sep :: s) = p :: doublePieces sep s := by
  induction p with
  | nil => simp [doublePieces]
  | cons c p ih =>
      obtain ⟨hc, hp⟩ := not_or.1 (mt List.mem_cons.2 h)
      have hne : ∀ d, ¬ (c = sep ∧ d = sep) := fun d h => hc h.1.symm
      cases p with
      | nil =>
          rw [List.nil_append] at ih
          rw [List.cons_append, List.nil_append, doublePieces, if_neg (hne sep), ih hp]
      | cons d p =>
          rw [List.cons_append] at ih
          rw [List.cons_append, List.cons_append, doublePieces, if_neg (hne d), ih hp]

theorem intercalate_doublePieces (s : List Char) :
    [sep, sep].intercalate (doublePieces sep s) = s := by
  induction s using doublePieces.induct sep with
  | case1 => rfl
  | case2 c => rfl
  | case3 c d s h ih =>
      obtain ⟨rfl, rfl⟩ := h
      cases hs : doublePieces d s with
      | nil => exact absurd hs (doublePieces_ne_nil s)
      | cons p ps =>
          rw [hs] at ih
          rw [doublePieces, if_pos ⟨rfl, rfl⟩, hs, List.intercalate_cons_cons, ih]
          rfl
  | case4 c d s h hnil ih => exact absurd hnil (doublePieces_ne_nil _)
  | case5 c d s h p ps hp ih =>
      rw [hp] at ih
      rw [doublePieces, if_neg h, hp, ← ih]
      cases ps with
      | nil => simp
      | cons q ps => simp [List.intercalate_cons_cons]

end DeviceTwin.Text
