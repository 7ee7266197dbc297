import DeviceTwin.Proofs.Dtmi.Fault

/-!
# Mending the first fault

A piece at fault can be put right by itself: what stands behind it is cut into pieces as before,
so the next fault, if there is one, lies behind it (`FirstFault.mend`). The message that is told
about a text tells its first fault and no other one.
-/

namespace DeviceTwin.Dtmi

open DeviceTwin.Text

/-! ### Putting a piece right -/

namespace Problem

/-- The piece that is at fault, if a piece is. -/
def piece? : Problem → Option (List Char)
  | emptySegment => some []
  | badSegment s => some s
  | badMajor n => some n
  | badMinor n => some n
  | _ => none

/-- The text is well formed in the place of the piece that is at fault. -/
def Mends : Problem → List Char → Prop
  | emptySegment, w => Segment w
  | badSegment _, w => Segment w
  | badMajor _, w => Major w
  | badMinor _, w => Minor w
  | _, _ => False

end Problem

theorem Segment.not_mem {w : List Char} (h : Segment w) : ':' ∉ w ∧ ';' ∉ w := by
  have hchars := isSegmentChar_of_isSegment (isSegment_iff.2 h)
  exact ⟨fun hc => absurd (hchars _ hc) (by decide), fun hc => absurd (hchars _ hc) (by decide)⟩

theorem Minor.dot_not_mem {w : List Char} (h : Minor w) : '.' ∉ w := fun hc =>
  absurd (isDigit_of_isMinor (isMinor_iff.2 h) _ hc) (by decide)

section Mending

variable {path version before bad s : List Char} {p : Problem}

/-- A path with a fault is empty, or it has a first piece that is no segment. -/
theorem PathFault.shape (h : PathFault path before p) :
    (path = [] ∧ p.piece? = none) ∨
      ∃ good bad others, pieces ':' path = good ++ bad :: others ∧ (∀ s ∈ good, Segment s) ∧
        ¬ Segment bad ∧ before = closed ':' good ∧ p.piece? = some bad ∧ p.Mends = Segment := by
  cases h with
  | missing hpath => exact .inl ⟨hpath, rfl⟩
  | empty _ hpieces hgood => exact .inr ⟨_, _, _, hpieces, hgood, not_segment_nil, rfl, rfl, rfl⟩
  | segment _ hpieces hgood hbad => exact .inr ⟨_, _, _, hpieces, hgood, hbad, rfl, rfl, rfl⟩

theorem PathFault.segment_of_mends {w : List Char} (h : PathFault path before p)
    (hp : p.piece? = some bad) (hw : p.Mends w) : Segment w := by
  cases h with
  | missing => exact nomatch hp
  | empty | segment => exact hw

/-- The next fault of a path, once its pieces up to `w` are segments, is behind `w`. -/
theorem PathFault.lt_of_pieces {good others : List (List Char)} {w : List Char}
    (h : PathFault path before p) (hpieces : pieces ':' path = good ++ w :: others)
    (hgood : ∀ s ∈ good ++ [w], Segment s) : (closed ':' good ++ w).length < before.length := by
  rcases h.shape with ⟨rfl, -⟩ | ⟨good', bad, others', hpieces', -, hbad, rfl, -⟩
  · have hmem : w ∈ pieces ':' [] := hpieces ▸ List.mem_append_right _ List.mem_cons_self
    have hsegment : Segment w := hgood w (List.mem_append_right _ List.mem_cons_self)
    exact absurd (List.mem_singleton.1 hmem ▸ hsegment) not_segment_nil
  · -- The pieces up to `w` are segments, so the first one that is none comes behind them.
    have hrow : good ++ [w] ++ others = good' ++ bad :: others' := by
      rw [List.append_assoc, List.singleton_append, ← hpieces, hpieces']
    obtain ⟨more, rfl⟩ := exists_of_append_eq hrow hgood hbad
    exact lt_length_closed good more w

/-- With a segment for the piece at fault, the next fault of a path is behind this piece. -/
theorem PathFault.mend (h : PathFault path before p) (hp : p.piece? = some bad) :
    ∃ after, path = before ++ (bad ++ after) ∧ ∀ w, p.Mends w →
      ∀ before' p', PathFault (before ++ (w ++ after)) before' p' →
        (before ++ w).length < before'.length := by
  rcases h.shape with ⟨-, hnone⟩ | ⟨good, piece, others, hpieces, hgood, -, rfl, hpiece, hmends⟩
  · exact nomatch hnone.symm.trans hp
  · obtain rfl := Option.some.inj (hpiece.symm.trans hp)
    refine ⟨opened ':' others, eq_of_pieces hpieces, fun w hw before' p' h' => ?_⟩
    have hsegment : Segment w := hmends ▸ hw
    refine h'.lt_of_pieces (pieces_replace hpieces hsegment.not_mem.1) ?_
    exact List.forall_mem_append.2 ⟨hgood, List.forall_mem_singleton.2 hsegment⟩

/-- The next fault of a version, once its pieces up to `w` are well formed, is behind `w`. -/
theorem VersionFault.lt_of_pieces {good others : List (List Char)} {major w : List Char}
    (h : VersionFault version before p) (hmajor : Major major)
    (hpieces : pieces '.' version = good ++ w :: others)
    (hfirst : (good ++ [w]).head? = some major) (hgood : ∀ m ∈ good ++ [w], Minor m) :
    (closed '.' good ++ w).length < before.length := by
  have hrow : pieces '.' version = (good ++ [w]) ++ others := by
    rw [hpieces, List.append_assoc, List.singleton_append]
  obtain ⟨rest, hrest⟩ : ∃ rest, good ++ [w] = major :: rest :=
    List.head?_eq_some_iff.1 hfirst
  have hhead : pieces '.' version = major :: (rest ++ others) := by
    rw [hrow, hrest, List.cons_append]
  cases h with
  | missing hversion =>
      obtain ⟨hnil, -⟩ := List.cons.inj (hversion ▸ hhead : pieces '.' [] = _)
      exact absurd (hnil ▸ hmajor) nofun
  | major _ hpieces' hbad =>
      obtain ⟨rfl, -⟩ := List.cons.inj (hhead.symm.trans hpieces')
      exact absurd hmajor hbad
  | @minor good' others' major' bad hpieces' hmajor' _ hbad =>
      obtain ⟨more, hmore⟩ : ∃ more, major' :: good' = good ++ [w] ++ more :=
        exists_of_append_eq (hrow.symm.trans hpieces') hgood hbad
      rw [hmore]
      exact lt_length_closed good more w

/-- With a number for the piece at fault, the next fault of a version is behind this piece. -/
theorem VersionFault.mend (h : VersionFault version before p) (hp : p.piece? = some bad) :
    ∃ after, version = before ++ (bad ++ after) ∧ ∀ w, p.Mends w →
      ∀ before' p', VersionFault (before ++ (w ++ after)) before' p' →
        (before ++ w).length < before'.length := by
  cases h with
  | missing => exact nomatch hp
  | @major others _ _ hpieces _ =>
      obtain rfl := Option.some.inj hp
      have hrow : pieces '.' version = [] ++ _ :: others := hpieces
      refine ⟨opened '.' others, eq_of_pieces hrow, ?_⟩
      intro w (hw : Major w) before' p' h'
      have hminor : Minor w := .inr hw
      have hnew := pieces_replace hrow hminor.dot_not_mem
      exact h'.lt_of_pieces hw hnew rfl (List.forall_mem_singleton.2 hminor)
  | @minor good others major _ hpieces hmajor hgood _ =>
      obtain rfl := Option.some.inj hp
      have hrow : pieces '.' version = (major :: good) ++ _ :: others := hpieces
      refine ⟨opened '.' others, eq_of_pieces hrow, ?_⟩
      intro w (hw : Minor w) before' p' h'
      refine h'.lt_of_pieces hmajor (pieces_replace hrow hw.dot_not_mem) rfl ?_
      refine List.forall_mem_append.2 ⟨?_, List.forall_mem_singleton.2 hw⟩
      exact List.forall_mem_cons.2 ⟨.inr hmajor, hgood⟩

/-- With a well-formed piece for the one at fault, the next fault of a text is behind it. -/
theorem FirstFault.mend (h : FirstFault s before p) (hp : p.piece? = some bad) :
    ∃ after, s = before ++ (bad ++ after) ∧ ∀ w, p.Mends w →
      ∀ before' p', FirstFault (before ++ (w ++ after)) before' p' →
        (before ++ w).length < before'.length := by
  cases h with
  | scheme | semicolon => exact nomatch hp
  | @path path version b _ hs hpath h =>
      obtain ⟨after, rfl, hmend⟩ := h.mend hp
      refine ⟨after ++ ';' :: version, by simp only [hs, List.append_assoc], ?_⟩
      intro w hw before' p' h'
      have hsemicolon : ';' ∉ b ++ (w ++ after) :=
        not_mem_replace hpath (h.segment_of_mends hp hw).not_mem.2
      have hs' : Dtmi.scheme ++ b ++ (w ++ (after ++ ';' :: version)) =
          Dtmi.scheme ++ (b ++ (w ++ after) ++ ';' :: version) := by
        simp only [List.append_assoc]
      rcases h'.of_cut hs' hsemicolon with ⟨b', rfl, hb'⟩ | ⟨b', rfl, -, -⟩
      · have hlt := hmend w hw b' p' hb'
        simp only [List.length_append] at hlt ⊢
        omega
      · simp only [List.length_append, List.length_cons]
        omega
  | @version path version b _ hs hpath hsegments h =>
      obtain ⟨after, rfl, hmend⟩ := h.mend hp
      refine ⟨after, by simp only [hs, List.append_assoc, List.cons_append], ?_⟩
      intro w hw before' p' h'
      have hs' : Dtmi.scheme ++ (path ++ ';' :: b) ++ (w ++ after) =
          Dtmi.scheme ++ (path ++ ';' :: (b ++ (w ++ after))) := by
        simp only [List.append_assoc, List.cons_append]
      rcases h'.of_cut hs' hpath with ⟨b', -, hb'⟩ | ⟨b', rfl, -, hb'⟩
      · exact absurd hsegments hb'.not_segments
      · have hlt := hmend w hw b' p' hb'
        simp only [List.length_append, List.length_cons] at hlt ⊢
        omega

end Mending

/-! ### What is told -/

namespace Problem

/-- The words with which a message begins, as the messages of no other kind do. -/
def opening : Problem → String
  | noScheme => "must"
  | noSemicolon => "missing ';"
  | noPath => "missing p"
  | emptySegment => "empty"
  | badSegment _ => "segment"
  | noVersion => "missing v"
  | badMajor _ => "major"
  | badMinor _ => "version"

theorem opening_prefix (p : Problem) : p.opening.toList <+: p.message.toList := by
  have hquoting : ∀ {o a b : String} {s : List Char}, o.toList <+: a.toList →
      o.toList <+: (a ++ String.ofList s ++ b).toList := by
    intro o a b s h
    rw [String.append_assoc, String.toList_append]
    exact h.trans (List.prefix_append _ _)
  cases p with
  | noScheme | noSemicolon | noPath | emptySegment | noVersion => decide
  | badSegment s => exact hquoting (o := "segment") (by decide)
  | badMajor n => exact hquoting (o := "major") (by decide)
  | badMinor n => exact hquoting (o := "version") (by decide)

/-- A message tells the kind of a problem and the piece that is quoted in it. -/
theorem message_injective : Function.Injective message := by
  intro p q h
  have hprefix : p.opening.toList <+: q.opening.toList ∨ q.opening.toList <+: p.opening.toList :=
    List.prefix_or_prefix_of_prefix p.opening_prefix (h ▸ q.opening_prefix)
  have hquoted : ∀ {a b : String} {s s' : List Char},
      a ++ String.ofList s ++ b = a ++ String.ofList s' ++ b → s = s' := by
    intro a b s s' h
    simpa using congrArg String.toList h
  -- Two kinds differ in their openings; within one kind the pieces between equal words are equal.
  cases p <;> cases q
  all_goals simp only [opening] at hprefix
  all_goals first
    | exact absurd hprefix (by decide)
    | rfl
    | exact congrArg _ (hquoted h)

end Problem

/-- A message is told about exactly the texts that have its problem for their first fault, which
no text has two of. With a well-formed piece in the place of the one at fault, the text is an
identifier or its first fault is behind this piece. -/
theorem first_fault_is_told (s : List Char) :
    (∀ p : Problem, (problem? s).map Problem.message = some p.message ↔
      ∃ before, FirstFault s before p) ∧
    (∀ before before' p p', FirstFault s before p → FirstFault s before' p' →
      before = before' ∧ p = p') ∧
    ∀ before p bad, FirstFault s before p → p.piece? = some bad →
      ∃ after, s = before ++ (bad ++ after) ∧ ∀ w, p.Mends w →
        problem? (before ++ (w ++ after)) = none ∨
        ∃ before' p', FirstFault (before ++ (w ++ after)) before' p' ∧
          (before ++ w).length < before'.length := by
  refine ⟨fun p => ?_, fun _ _ _ _ h h' => h.unique h', fun before p bad h hp => ?_⟩
  · rw [← problem?_eq_some_iff]
    constructor
    · intro h
      obtain ⟨q, hq, hmessage⟩ := Option.map_eq_some_iff.1 h
      rw [hq, Problem.message_injective hmessage]
    · intro h
      rw [h, Option.map_some]
  · obtain ⟨after, hs, hmend⟩ := h.mend hp
    refine ⟨after, hs, fun w hw => ?_⟩
    cases hnext : problem? (before ++ (w ++ after)) with
    | none => exact .inl rfl
    | some p' =>
        obtain ⟨before', h'⟩ := exists_firstFault hnext
        exact .inr ⟨before', p', h', hmend w hw before' p' h'⟩

theorem first_fault_is_told_relay :
    FirstFault "dtmi:a:1b:c;0.x".toList "dtmi:a:".toList (.badSegment "1b".toList) ∧
      (problem? "dtmi:a:1b:c;0.x".toList).map Problem.message =
        some (Problem.badSegment "1b".toList).message ∧
      ∃ before' p', FirstFault "dtmi:a:b:c;0.x".toList before' p' ∧
        "dtmi:a:b".toList.length < before'.length := by
  obtain ⟨htold, -, hmend⟩ := first_fault_is_told "dtmi:a:1b:c;0.x".toList
  have hpieces : pieces ':' "a:1b:c".toList = ["a".toList] ++ "1b".toList :: ["c".toList] := by
    decide
  have hgood : ∀ s ∈ ["a".toList], Segment s :=
    List.forall_mem_singleton.2 (isSegment_iff.1 (by decide))
  have hcut : "dtmi:a:1b:c;0.x".toList = scheme ++ ("a:1b:c".toList ++ ';' :: "0.x".toList) := by
    decide
  have hfault : FirstFault "dtmi:a:1b:c;0.x".toList "dtmi:a:".toList
      (.badSegment "1b".toList) :=
    .path hcut (by decide) (.segment (by decide) hpieces hgood (mt isSegment_iff.2 (by decide)))
  refine ⟨hfault, (htold _).2 ⟨_, hfault⟩, ?_⟩
  obtain ⟨after, hs, hnext⟩ := hmend _ _ _ hfault rfl
  have hsplit : "dtmi:a:1b:c;0.x".toList =
      "dtmi:a:".toList ++ ("1b".toList ++ ":c;0.x".toList) := by decide
  obtain rfl : ":c;0.x".toList = after :=
    List.append_cancel_left (List.append_cancel_left (hsplit.symm.trans hs))
  exact (hnext "b".toList (isSegment_iff.1 (by decide))).resolve_left (by decide)

end DeviceTwin.Dtmi
