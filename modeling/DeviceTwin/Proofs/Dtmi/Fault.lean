import DeviceTwin.Proofs.Dtmi.Grammar
import DeviceTwin.Proofs.Text.Row

/-!
# The first fault of a text

`FirstFault s before p` says, without running the checker, that `p` is the first thing wrong with
the text `s` and that `before` is what stands in front of it. A text that is no identifier has
just one first fault, which is the problem that is found in it (`problem?_eq_some_iff`).
-/

namespace DeviceTwin.Dtmi

open DeviceTwin.Text

/-! ### Faults -/

/-- The first fault of a path, and what stands in front of it there. -/
inductive PathFault (path : List Char) : List Char → Problem → Prop
  | missing (hpath : path = []) : PathFault path [] .noPath
  | empty {good others : List (List Char)} (hpath : path ≠ [])
      (hpieces : pieces ':' path = good ++ [] :: others) (hgood : ∀ s ∈ good, Segment s) :
      PathFault path (closed ':' good) .emptySegment
  | segment {good others : List (List Char)} {bad : List Char} (hne : bad ≠ [])
      (hpieces : pieces ':' path = good ++ bad :: others) (hgood : ∀ s ∈ good, Segment s)
      (hbad : ¬ Segment bad) : PathFault path (closed ':' good) (.badSegment bad)

/-- The first fault of a version, and what stands in front of it there. -/
inductive VersionFault (version : List Char) : List Char → Problem → Prop
  | missing (hversion : version = []) : VersionFault version [] .noVersion
  | major {others : List (List Char)} {bad : List Char} (hversion : version ≠ [])
      (hpieces : pieces '.' version = bad :: others) (hbad : ¬ Major bad) :
      VersionFault version [] (.badMajor bad)
  | minor {good others : List (List Char)} {major bad : List Char}
      (hpieces : pieces '.' version = major :: (good ++ bad :: others)) (hmajor : Major major)
      (hgood : ∀ m ∈ good, Minor m) (hbad : ¬ Minor bad) :
      VersionFault version (closed '.' (major :: good)) (.badMinor bad)

/-- The first fault of a text, and what stands in front of it. The path ends at the first
semicolon, and faults of the version count only behind a path without faults. -/
inductive FirstFault (s : List Char) : List Char → Problem → Prop
  | scheme (h : ¬ scheme <+: s) : FirstFault s [] .noScheme
  | semicolon {rest : List Char} (hs : s = Dtmi.scheme ++ rest) (h : ';' ∉ rest) :
      FirstFault s s .noSemicolon
  | path {path version before : List Char} {p : Problem}
      (hs : s = Dtmi.scheme ++ (path ++ ';' :: version)) (hpath : ';' ∉ path)
      (h : PathFault path before p) : FirstFault s (Dtmi.scheme ++ before) p
  | version {path version before : List Char} {p : Problem}
      (hs : s = Dtmi.scheme ++ (path ++ ';' :: version)) (hpath : ';' ∉ path)
      (hsegments : ∀ s ∈ pieces ':' path, Segment s) (h : VersionFault version before p) :
      FirstFault s (Dtmi.scheme ++ (path ++ ';' :: before)) p

section Problems

variable {path version before before' s : List Char} {p p' : Problem}

theorem pathProblem?_eq_none_iff_segments :
    pathProblem? path = none ↔ ∀ s ∈ pieces ':' path, Segment s :=
  pathProblem?_eq_none_iff.trans (forall₂_congr fun _ _ => isSegment_iff)

theorem segmentProblem?_of_not_segment (hne : s ≠ []) (h : ¬ Segment s) :
    segmentProblem? s = some (.badSegment s) := by
  rw [segmentProblem?, if_neg (mt List.isEmpty_iff.1 hne), if_neg (mt isSegment_iff.1 h)]

theorem PathFault.pathProblem?_eq (h : PathFault path before p) : pathProblem? path = some p := by
  have hfirst : ∀ {good others : List (List Char)} {bad : List Char}, path ≠ [] →
      pieces ':' path = good ++ bad :: others → (∀ s ∈ good, Segment s) →
        segmentProblem? bad = some p → pathProblem? path = some p := by
    intro good others bad hne hpieces hgood hbad
    rw [pathProblem?, if_neg (mt List.isEmpty_iff.1 hne), List.findSome?_eq_some_iff]
    exact ⟨good, bad, others, hpieces, hbad, fun s hs =>
      segmentProblem?_eq_none_iff.2 (isSegment_iff.2 (hgood s hs))⟩
  cases h with
  | missing hpath => rw [hpath]; rfl
  | empty hpath hpieces hgood => exact hfirst hpath hpieces hgood rfl
  | @segment good others bad hne hpieces hgood hbad =>
      refine hfirst ?_ hpieces hgood (segmentProblem?_of_not_segment hne hbad)
      rintro rfl
      have hmem : bad ∈ pieces ':' [] := hpieces ▸ List.mem_append_right _ List.mem_cons_self
      exact hne (List.mem_singleton.1 hmem)

theorem exists_pathFault (h : pathProblem? path = some p) : ∃ before, PathFault path before p := by
  rw [pathProblem?] at h
  split_ifs at h with hempty
  · obtain rfl := Option.some.inj h
    exact ⟨[], .missing (List.isEmpty_iff.1 hempty)⟩
  · obtain ⟨good, bad, others, hpieces, hbad, hnone⟩ := List.findSome?_eq_some_iff.1 h
    have hgood : ∀ s ∈ good, Segment s := fun s hs =>
      isSegment_iff.1 (segmentProblem?_eq_none_iff.1 (hnone s hs))
    refine ⟨closed ':' good, ?_⟩
    rw [segmentProblem?] at hbad
    split_ifs at hbad with hnil hsegment
    · obtain rfl := Option.some.inj hbad
      obtain rfl := List.isEmpty_iff.1 hnil
      exact .empty (mt List.isEmpty_iff.2 hempty) hpieces hgood
    · obtain rfl := Option.some.inj hbad
      exact .segment (mt List.isEmpty_iff.2 hnil) hpieces hgood (mt isSegment_iff.2 hsegment)

theorem VersionFault.versionProblem?_eq (h : VersionFault version before p) :
    versionProblem? version = some p := by
  cases h with
  | missing hversion => rw [hversion]; rfl
  | major hversion hpieces hbad =>
      rw [versionProblem?, if_neg (mt List.isEmpty_iff.1 hversion), hpieces]
      exact if_neg (mt isMajor_iff.1 hbad)
  | @minor good others major bad hpieces hmajor hgood hbad =>
      have hversion : version ≠ [] := by
        rintro rfl
        exact absurd (List.cons.inj hpieces).2.symm
          (List.append_ne_nil_of_right_ne_nil _ (List.cons_ne_nil _ _))
      rw [versionProblem?, if_neg (mt List.isEmpty_iff.1 hversion), hpieces]
      refine (if_pos (isMajor_iff.2 hmajor)).trans (List.findSome?_eq_some_iff.2 ?_)
      refine ⟨good, bad, others, rfl, if_neg (mt isMinor_iff.1 hbad), fun m hm => ?_⟩
      exact minorProblem?_eq_none_iff.2 (isMinor_iff.2 (hgood m hm))

theorem exists_versionFault (h : versionProblem? version = some p) :
    ∃ before, VersionFault version before p := by
  rw [versionProblem?] at h
  split_ifs at h with hempty
  · obtain rfl := Option.some.inj h
    exact ⟨[], .missing (List.isEmpty_iff.1 hempty)⟩
  · cases hpieces : pieces '.' version with
    | nil => exact absurd hpieces (pieces_ne_nil '.' version)
    | cons major minors =>
        simp only [hpieces] at h
        split_ifs at h with hmajor
        · obtain ⟨good, bad, others, rfl, hbad, hnone⟩ := List.findSome?_eq_some_iff.1 h
          have hgood : ∀ m ∈ good, Minor m := fun m hm =>
            isMinor_iff.1 (minorProblem?_eq_none_iff.1 (hnone m hm))
          rw [minorProblem?] at hbad
          split_ifs at hbad with hminor
          obtain rfl := Option.some.inj hbad
          exact ⟨_, .minor hpieces (isMajor_iff.1 hmajor) hgood (mt isMinor_iff.2 hminor)⟩
        · obtain rfl := Option.some.inj h
          exact ⟨[], .major (mt List.isEmpty_iff.2 hempty) hpieces (mt isMajor_iff.2 hmajor)⟩

/-- The problem of a text that is cut at its first semicolon. -/
theorem problem?_cut (hs : s = scheme ++ (path ++ ';' :: version)) (hpath : ';' ∉ path) :
    problem? s = (pathProblem? path).or (versionProblem? version) := by
  rw [problem?, afterBeginning_eq_some_iff.2 hs]
  simp only [cut_append hpath]

theorem FirstFault.problem?_eq (h : FirstFault s before p) : problem? s = some p := by
  cases h with
  | scheme h => rw [problem?, afterBeginning_eq_none_iff.2 h]
  | semicolon hs h =>
      rw [problem?, afterBeginning_eq_some_iff.2 hs]
      simp only [cut_eq_none_iff.2 h]
  | path hs hpath h => rw [problem?_cut hs hpath, h.pathProblem?_eq, Option.some_or]
  | version hs hpath hsegments h =>
      rw [problem?_cut hs hpath, pathProblem?_eq_none_iff_segments.2 hsegments, Option.none_or,
        h.versionProblem?_eq]

theorem exists_firstFault (h : problem? s = some p) : ∃ before, FirstFault s before p := by
  rw [problem?] at h
  cases hrest : afterBeginning Dtmi.scheme s with
  | none =>
      rw [hrest] at h
      obtain rfl := Option.some.inj h
      exact ⟨[], .scheme (afterBeginning_eq_none_iff.1 hrest)⟩
  | some rest =>
      have hs := afterBeginning_eq_some_iff.1 hrest
      cases hcut : cut ';' rest with
      | none =>
          simp only [hrest, hcut] at h
          obtain rfl := Option.some.inj h
          exact ⟨s, .semicolon hs (cut_eq_none_iff.1 hcut)⟩
      | some parts =>
          obtain ⟨path, version⟩ := parts
          obtain ⟨rfl, hpath⟩ := cut_eq_some_iff.1 hcut
          simp only [hrest, hcut] at h
          rcases Option.or_eq_some_iff.1 h with h | ⟨hnone, h⟩
          · obtain ⟨before, hfault⟩ := exists_pathFault h
            exact ⟨_, .path hs hpath hfault⟩
          · obtain ⟨before, hfault⟩ := exists_versionFault h
            exact ⟨_, .version hs hpath (pathProblem?_eq_none_iff_segments.1 hnone) hfault⟩

theorem problem?_eq_some_iff : problem? s = some p ↔ ∃ before, FirstFault s before p :=
  ⟨exists_firstFault, fun ⟨_, h⟩ => h.problem?_eq⟩

/-! ### There is only one -/

theorem not_segment_nil : ¬ Segment [] :=
  nofun

theorem PathFault.unique (h : PathFault path before p) (h' : PathFault path before' p) :
    before = before' := by
  cases h with
  | missing => cases h'; rfl
  | empty _ hpieces hgood =>
      cases h' with
      | empty _ hpieces' hgood' =>
          rw [first_unique (hpieces.symm.trans hpieces') hgood not_segment_nil hgood'
            not_segment_nil]
  | segment _ hpieces hgood hbad =>
      cases h' with
      | segment _ hpieces' hgood' _ =>
          rw [first_unique (hpieces.symm.trans hpieces') hgood hbad hgood' hbad]

theorem VersionFault.unique (h : VersionFault version before p)
    (h' : VersionFault version before' p) : before = before' := by
  cases h with
  | missing => cases h'; rfl
  | major => cases h'; rfl
  | minor hpieces hmajor hgood hbad =>
      cases h' with
      | minor hpieces' _ hgood' _ =>
          obtain ⟨rfl, hminors⟩ := List.cons.inj (hpieces.symm.trans hpieces')
          rw [first_unique hminors hgood hbad hgood' hbad]

/-- A text is cut at its first semicolon in one way only. -/
theorem cut_unique {path' version' : List Char} (hs : s = scheme ++ (path ++ ';' :: version))
    (hpath : ';' ∉ path) (hs' : s = scheme ++ (path' ++ ';' :: version')) (hpath' : ';' ∉ path') :
    path = path' ∧ version = version' := by
  have hcut := congrArg (cut ';') (List.append_cancel_left (hs.symm.trans hs'))
  rw [cut_append hpath, cut_append hpath', Option.some.injEq, Prod.mk.injEq] at hcut
  exact hcut

/-- The first fault of a text with a semicolon is one of its path or one of its version. -/
theorem FirstFault.of_cut (h : FirstFault s before p)
    (hs : s = Dtmi.scheme ++ (path ++ ';' :: version)) (hpath : ';' ∉ path) :
    (∃ b, before = Dtmi.scheme ++ b ∧ PathFault path b p) ∨
      (∃ b, before = Dtmi.scheme ++ (path ++ ';' :: b) ∧ (∀ s ∈ pieces ':' path, Segment s) ∧
        VersionFault version b p) := by
  cases h with
  | scheme h => exact absurd ⟨_, hs.symm⟩ h
  | semicolon hs' h =>
      obtain rfl := List.append_cancel_left (hs'.symm.trans hs)
      exact absurd (List.mem_append_right _ List.mem_cons_self) h
  | path hs' hpath' h =>
      obtain ⟨rfl, rfl⟩ := cut_unique hs' hpath' hs hpath
      exact .inl ⟨_, rfl, h⟩
  | version hs' hpath' hsegments h =>
      obtain ⟨rfl, rfl⟩ := cut_unique hs' hpath' hs hpath
      exact .inr ⟨_, rfl, hsegments, h⟩

theorem PathFault.not_segments (h : PathFault path before p) :
    ¬ ∀ s ∈ pieces ':' path, Segment s := fun hsegments =>
  nomatch h.pathProblem?_eq.symm.trans (pathProblem?_eq_none_iff_segments.2 hsegments)

theorem FirstFault.unique (h : FirstFault s before p) (h' : FirstFault s before' p') :
    before = before' ∧ p = p' := by
  obtain rfl := Option.some.inj (h.problem?_eq.symm.trans h'.problem?_eq)
  refine ⟨?_, rfl⟩
  cases h with
  | scheme =>
      cases h' with
      | scheme => rfl
      | path _ _ h' | version _ _ _ h' => cases h'
  | semicolon =>
      cases h' with
      | semicolon => rfl
      | path _ _ h' | version _ _ _ h' => cases h'
  | path hs hpath h =>
      rcases h'.of_cut hs hpath with ⟨b, rfl, hb⟩ | ⟨b, -, hsegments, -⟩
      · rw [h.unique hb]
      · exact absurd hsegments h.not_segments
  | version hs hpath hsegments h =>
      rcases h'.of_cut hs hpath with ⟨b, -, hb⟩ | ⟨b, rfl, -, hb⟩
      · exact absurd hsegments hb.not_segments
      · rw [h.unique hb]

end Problems

end DeviceTwin.Dtmi
