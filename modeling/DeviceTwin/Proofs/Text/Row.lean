import DeviceTwin.Proofs.Text.Split
import Mathlib.Data.List.Basic

/-!
# A piece among the pieces of a text

The pieces in front of a piece, each with its separator behind it, and the pieces behind it, each
with its separator in front, make up the text around the piece. They stay as they are when the
piece is replaced by another one without separators.
-/

namespace DeviceTwin.Text

/-- Pieces that stand in front of another one, each with the separator behind it. -/
def closed (sep : Char) (ps : List (List Char)) : List Char :=
  ps.flatMap fun p => p ++ [sep]

/-- Pieces that stand behind another one, each with the separator in front of it. -/
def opened (sep : Char) (ps : List (List Char)) : List Char :=
  ps.flatMap fun p => sep :: p

variable {sep : Char}

theorem closed_append (ps qs : List (List Char)) :
    closed sep (ps ++ qs) = closed sep ps ++ closed sep qs :=
  List.flatMap_append

theorem closed_cons (p : List Char) (ps : List (List Char)) :
    closed sep (p :: ps) = p ++ sep :: closed sep ps := by
  rw [closed, List.flatMap_cons, List.append_assoc]
  rfl

theorem join_cons (p : List Char) (ps : List (List Char)) :
    join sep (p :: ps) = p ++ opened sep ps := by
  induction ps generalizing p with
  | nil => exact (List.append_nil p).symm
  | cons q ps ih => rw [join_cons_cons, ih]; rfl

/-- A piece, what stands in front of it and what stands behind it. -/
theorem join_append_cons (ps qs : List (List Char)) (p : List Char) :
    join sep (ps ++ p :: qs) = closed sep ps ++ (p ++ opened sep qs) := by
  induction ps with
  | nil => exact join_cons p qs
  | cons q ps ih =>
      obtain ⟨r, rs, hrs⟩ : ∃ r rs, ps ++ p :: qs = r :: rs :=
        List.exists_cons_of_ne_nil (List.append_ne_nil_of_right_ne_nil _ (List.cons_ne_nil _ _))
      rw [List.cons_append, hrs, join_cons_cons, ← hrs, ih, closed_cons, List.append_assoc,
        List.cons_append]

section Pieces

variable {s p : List Char} {ps qs : List (List Char)}

theorem eq_of_pieces (h : pieces sep s = ps ++ p :: qs) :
    s = closed sep ps ++ (p ++ opened sep qs) := by
  rw [← join_append_cons, ← h, join_pieces]

/-- One piece of a text is replaced by another one. -/
theorem pieces_replace {q : List Char} (h : pieces sep s = ps ++ p :: qs) (hq : sep ∉ q) :
    pieces sep (closed sep ps ++ (q ++ opened sep qs)) = ps ++ q :: qs := by
  have hmem : ∀ r ∈ ps ++ p :: qs, sep ∉ r := fun r hr => not_mem_of_mem_pieces (h ▸ hr)
  rw [← join_append_cons]
  refine pieces_join (List.append_ne_nil_of_right_ne_nil _ (List.cons_ne_nil _ _)) ?_
  rw [List.forall_mem_append, List.forall_mem_cons] at hmem ⊢
  exact ⟨hmem.1, hq, hmem.2.2⟩

end Pieces

theorem lt_length_closed (ps qs : List (List Char)) (w : List Char) :
    (closed sep ps ++ w).length < (closed sep (ps ++ [w] ++ qs)).length := by
  rw [closed_append, closed_append, closed_cons]
  simp only [List.length_append, List.length_cons]
  omega

/-- A piece that lacks a character does not bring it into a text. -/
theorem not_mem_replace {c : Char} {before old new after : List Char}
    (h : c ∉ before ++ (old ++ after)) (hnew : c ∉ new) : c ∉ before ++ (new ++ after) := by
  simp only [List.mem_append, not_or] at h ⊢
  exact ⟨h.1, hnew, h.2.2⟩

/-! ### The first item that does not fit -/

variable {α : Type} {P : α → Prop} {as bs cs ds : List α} {b d : α}

/-- Behind items that all fit, the first one that does not fit comes later. -/
theorem exists_of_append_eq (h : as ++ bs = cs ++ d :: ds) (has : ∀ a ∈ as, P a) (hd : ¬ P d) :
    ∃ more, cs = as ++ more := by
  rcases List.append_eq_append_iff.1 h with ⟨more, hcs, -⟩ | ⟨more, has', hbs⟩
  · exact ⟨more, hcs⟩
  · cases more with
    | nil => exact ⟨[], by rw [has', List.append_nil, List.append_nil]⟩
    | cons e more =>
        obtain ⟨rfl, -⟩ := List.cons.inj hbs
        refine absurd (has d ?_) hd
        rw [has']
        exact List.mem_append_right _ List.mem_cons_self

theorem first_unique (h : as ++ b :: bs = cs ++ d :: ds) (has : ∀ a ∈ as, P a) (hb : ¬ P b)
    (hcs : ∀ c ∈ cs, P c) (hd : ¬ P d) : as = cs := by
  obtain ⟨more, hmore⟩ := exists_of_append_eq h has hd
  obtain ⟨others, hothers⟩ := exists_of_append_eq h.symm hcs hb
  have hlength : more.length = 0 := by
    have hcs := congrArg List.length hmore
    have has := congrArg List.length hothers
    rw [List.length_append] at hcs has
    omega
  rw [hmore, List.length_eq_zero_iff.1 hlength, List.append_nil]

end DeviceTwin.Text
