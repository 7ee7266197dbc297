import DeviceTwin.Dtmi.Check
import DeviceTwin.Proofs.Text.Split

/-!
# The checker accepts the grammar

A text without a problem is put together from well-formed parts, the pieces at which
the checker looks, and a text put together from well-formed parts is cut into just
these parts: no segment holds a colon or a semicolon and no number holds a dot.
-/

namespace DeviceTwin.Dtmi

open DeviceTwin.Text

theorem segmentProblem?_eq_none_iff {s : List Char} :
    segmentProblem? s = none ↔ isSegment s = true := by
  cases s with
  | nil => simp [segmentProblem?, isSegment]
  | cons c s => simp [segmentProblem?]

theorem pathProblem?_eq_none_iff {path : List Char} :
    pathProblem? path = none ↔ ∀ s ∈ pieces ':' path, isSegment s = true := by
  cases path with
  | nil => simp [pathProblem?, isSegment]
  | cons c path =>
      rw [pathProblem?, if_neg (by simp), List.findSome?_eq_none_iff]
      exact forall₂_congr fun _ _ => segmentProblem?_eq_none_iff

theorem minorProblem?_eq_none_iff {m : List Char} :
    minorProblem? m = none ↔ isMinor m = true := by
  simp [minorProblem?]

theorem versionProblem?_eq_none_iff {version : List Char} :
    versionProblem? version = none ↔
      ∃ major minors, pieces '.' version = major :: minors ∧ isMajor major = true ∧
        ∀ m ∈ minors, isMinor m = true := by
  cases version with
  | nil => simp [versionProblem?, isMajor]
  | cons c version =>
      rw [versionProblem?, if_neg (by simp)]
      cases hp : pieces '.' (c :: version) with
      | nil => exact absurd hp (pieces_ne_nil '.' _)
      | cons major minors =>
          have hminors : minors.findSome? minorProblem? = none ↔ ∀ m ∈ minors, isMinor m :=
            List.findSome?_eq_none_iff.trans
              (forall₂_congr fun _ _ => minorProblem?_eq_none_iff)
          by_cases hm : isMajor major
          · simp only [if_pos hm, hminors]
            constructor
            · exact fun h => ⟨major, minors, rfl, hm, h⟩
            · rintro ⟨_, _, ⟨⟩, -, h⟩
              exact h
          · simp only [if_neg hm]
            constructor
            · exact fun h => absurd h (Option.some_ne_none _)
            · rintro ⟨_, _, ⟨⟩, h, -⟩
              exact absurd h hm

/-- A text without a problem has the scheme in front and a semicolon between a path and
a version without problems. -/
theorem problem?_eq_none_iff_parts {s : List Char} :
    problem? s = none ↔
      ∃ path version, s = scheme ++ (path ++ ';' :: version) ∧ ';' ∉ path ∧
        pathProblem? path = none ∧ versionProblem? version = none := by
  constructor
  · intro h
    rw [problem?] at h
    cases hrest : afterBeginning scheme s with
    | none => simp [hrest] at h
    | some rest =>
        cases hcut : cut ';' rest with
        | none => simp [hrest, hcut] at h
        | some parts =>
            obtain ⟨path, version⟩ := parts
            obtain ⟨rfl, hmem⟩ := cut_eq_some_iff.1 hcut
            simp only [hrest, hcut, Option.or_eq_none_iff] at h
            exact ⟨path, version, afterBeginning_eq_some_iff.1 hrest, hmem, h⟩
  · rintro ⟨path, version, hs, hmem, hpath, hversion⟩
    rw [problem?, afterBeginning_eq_some_iff.2 hs]
    simp only [cut_append hmem, hpath, hversion, Option.or_none]

/-! ### Characters of the parts -/

theorem isSegmentChar_of_isSegment {s : List Char} (h : isSegment s = true) :
    ∀ c ∈ s, isSegmentChar c = true := by
  cases s with
  | nil => exact absurd h Bool.false_ne_true
  | cons d s =>
      rw [isSegment, Bool.and_eq_true] at h
      intro c hc
      rcases List.mem_cons.1 hc with rfl | hc
      · simp [isSegmentChar, h.1]
      · exact List.all_eq_true.1 h.2 c hc

theorem isDigit_of_isMajor {s : List Char} (h : isMajor s = true) :
    ∀ c ∈ s, isDigit c = true := by
  cases s with
  | nil => exact absurd h Bool.false_ne_true
  | cons d s =>
      rw [isMajor, Bool.and_eq_true, Bool.and_eq_true] at h
      intro c hc
      rcases List.mem_cons.1 hc with rfl | hc
      · exact h.1.1
      · exact List.all_eq_true.1 h.2 c hc

theorem isDigit_of_isMinor {s : List Char} (h : isMinor s = true) :
    ∀ c ∈ s, isDigit c = true := by
  rw [isMinor, Bool.or_eq_true] at h
  rcases h with h | h
  · rw [beq_iff_eq.1 h]
    exact List.forall_mem_singleton.2 (by decide)
  · exact isDigit_of_isMajor h

namespace Parts.WellFormed

variable {p : Parts}

theorem colon_not_mem (h : p.WellFormed) : ∀ s ∈ p.segments, ':' ∉ s := by
  intro s hs hc
  exact absurd (isSegmentChar_of_isSegment (h.segments s hs) _ hc) (by decide)

theorem semicolon_not_mem (h : p.WellFormed) : ';' ∉ join ':' p.segments := by
  intro hc
  rcases mem_join hc with hc | ⟨s, hs, hc⟩
  · exact absurd hc (by decide)
  · exact absurd (isSegmentChar_of_isSegment (h.segments s hs) _ hc) (by decide)

theorem dot_not_mem (h : p.WellFormed) : ∀ n ∈ p.major :: p.minors, '.' ∉ n := by
  refine List.forall_mem_cons.2 ⟨fun hc => ?_, fun n hn hc => ?_⟩
  · exact absurd (isDigit_of_isMajor h.major _ hc) (by decide)
  · exact absurd (isDigit_of_isMinor (h.minors n hn) _ hc) (by decide)

theorem pieces_path (h : p.WellFormed) : pieces ':' (join ':' p.segments) = p.segments :=
  pieces_join h.nonempty h.colon_not_mem

theorem pieces_version (h : p.WellFormed) :
    pieces '.' (join '.' (p.major :: p.minors)) = p.major :: p.minors :=
  pieces_join (List.cons_ne_nil _ _) h.dot_not_mem

end Parts.WellFormed

theorem problem?_text {p : Parts} (h : p.WellFormed) : problem? p.text = none := by
  refine problem?_eq_none_iff_parts.2
    ⟨join ':' p.segments, join '.' (p.major :: p.minors), ?_, h.semicolon_not_mem, ?_, ?_⟩
  · rw [Parts.text, List.append_assoc]
  · rw [pathProblem?_eq_none_iff, h.pieces_path]
    exact h.segments
  · rw [versionProblem?_eq_none_iff]
    exact ⟨p.major, p.minors, h.pieces_version, h.major, h.minors⟩

theorem problem?_eq_none_iff {s : List Char} : problem? s = none ↔ IsDtmi s := by
  constructor
  · intro h
    obtain ⟨path, version, rfl, -, hpath, hversion⟩ := problem?_eq_none_iff_parts.1 h
    obtain ⟨major, minors, hpieces, hmajor, hminors⟩ := versionProblem?_eq_none_iff.1 hversion
    refine ⟨⟨pieces ':' path, major, minors⟩,
      ⟨pieces_ne_nil ':' path, pathProblem?_eq_none_iff.1 hpath, hmajor, hminors⟩, ?_⟩
    rw [Parts.text, join_pieces, ← hpieces, join_pieces, List.append_assoc]
  · rintro ⟨p, hp, rfl⟩
    exact problem?_text hp

end DeviceTwin.Dtmi
