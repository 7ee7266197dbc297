import DeviceTwin.Proofs.Dtmi.Grammar
import DeviceTwin.Proofs.Text.Classes

/-!
# The parts of an identifier

The segments of an identifier are taken from its front, up to the first semicolon, and its
version from its back, down to the last one. An identifier comes from well-formed parts, and no
character of a segment or a number is a semicolon, so there is only one: the two ways meet, and
put together again the parts are the whole text. A major version is written without leading
zeros, as numbers are, and so it is known from its digits unless it does not fit.
-/

namespace DeviceTwin

namespace Dtmi

open DeviceTwin.Text

/-- A major version is written as its value is. -/
theorem decimalDigits_decimalValue {s : List Char} (h : isMajor s = true) :
    decimalDigits (decimalValue s) = s := by
  cases s with
  | nil => exact absurd h Bool.false_ne_true
  | cons c s =>
      rw [isMajor, Bool.and_eq_true, List.all_eq_true, Bool.and_eq_true, bne_iff_ne] at h
      exact decimalDigits_decimalValue_cons h.1.1 h.1.2 h.2

theorem decimalValue_pos {s : List Char} (h : isMajor s = true) : 0 < decimalValue s := by
  refine Nat.pos_of_ne_zero fun hzero => ?_
  have hs := decimalDigits_decimalValue h
  rw [hzero] at hs
  exact absurd (hs ▸ h) (by decide)

/-- Neither a number nor what stands between numbers is a semicolon. -/
theorem Parts.WellFormed.semicolon_not_mem_version {p : Parts} (h : p.WellFormed) :
    ';' ∉ join '.' (p.major :: p.minors) := by
  have hdigit : ∀ n ∈ p.major :: p.minors, ∀ c ∈ n, isDigit c = true :=
    List.forall_mem_cons.2
      ⟨isDigit_of_isMajor h.major, fun m hm => isDigit_of_isMinor (h.minors m hm)⟩
  intro hc
  rcases mem_join hc with hc | ⟨n, hn, hc⟩
  · exact absurd hc (by decide)
  · exact absurd (hdigit n hn _ hc) (by decide)

theorem exists_parts (d : Dtmi) : ∃ p : Parts, p.WellFormed ∧ d.text.toList = p.text :=
  problem?_eq_none_iff.1 d.valid

section Parts

variable {d : Dtmi} {p : Parts}

theorem drop_scheme (h : d.text.toList = p.text) :
    d.text.toList.drop scheme.length =
      join ':' p.segments ++ ';' :: join '.' (p.major :: p.minors) := by
  rw [h, Parts.text, List.append_assoc, List.drop_left]

theorem cut_text (hp : p.WellFormed) (h : d.text.toList = p.text) :
    cut ';' (d.text.toList.drop scheme.length) =
      some (join ':' p.segments, join '.' (p.major :: p.minors)) := by
  rw [drop_scheme h]
  exact cut_append hp.semicolon_not_mem

theorem cutLast_text (hp : p.WellFormed) (h : d.text.toList = p.text) :
    cutLast ';' d.text.toList =
      some (scheme ++ join ':' p.segments, join '.' (p.major :: p.minors)) := by
  rw [h]
  exact cutLast_append hp.semicolon_not_mem_version _

theorem path_eq (hp : p.WellFormed) (h : d.text.toList = p.text) :
    d.path = join ':' p.segments := by
  simp only [path, cut_text hp h]

theorem version_eq (hp : p.WellFormed) (h : d.text.toList = p.text) :
    d.version = join '.' (p.major :: p.minors) := by
  simp only [version, cutLast_text hp h]

theorem segments_eq (hp : p.WellFormed) (h : d.text.toList = p.text) :
    d.segments = p.segments.map String.ofList := by
  rw [segments, path_eq hp h, hp.pieces_path]

/-- The first number of a version ends at the first dot, or with the version. -/
theorem takeWhile_version (hp : p.WellFormed) (h : d.text.toList = p.text) :
    d.version.takeWhile (· ≠ '.') = p.major := by
  have hmajor : ∀ c ∈ p.major, decide (c ≠ '.') = true := fun c hc => decide_eq_true fun heq =>
    hp.dot_not_mem p.major List.mem_cons_self (heq ▸ hc)
  rw [version_eq hp h]
  cases p.minors with
  | nil =>
      have hstop := takeWhile_append_stop (s := []) hmajor nofun
      rw [List.append_nil] at hstop
      exact hstop.1
  | cons m ms =>
      rw [join_cons_cons]
      refine (takeWhile_append_stop hmajor fun c hc => ?_).1
      obtain rfl := Option.some.inj hc
      rfl

theorem majorVersion_eq (hp : p.WellFormed) (h : d.text.toList = p.text) :
    d.majorVersion = if decimalValue p.major < 2 ^ 64 then decimalValue p.major else 0 := by
  have hcount : Number.count64 = 2 ^ 64 := rfl
  rw [majorVersion, version_eq hp h, hp.pieces_version, List.headD_cons, hcount]

theorem text_eq (hp : p.WellFormed) (h : d.text.toList = p.text) :
    d.text = "dtmi:" ++ interpose ":" d.segments ++ ";" ++ String.ofList d.version := by
  have hpath : (interpose ":" d.segments).toList = join ':' p.segments := by
    rw [toList_interpose rfl, segments_eq hp h, List.map_map]
    exact congrArg _ ((List.map_congr_left fun s _ => String.toList_ofList).trans
      (List.map_id' _))
  refine String.toList_inj.1 ?_
  simp only [String.toList_append, String.toList_ofList, hpath, version_eq hp h, h, Parts.text,
    List.append_assoc]
  rfl

end Parts

/-- The first semicolon behind the scheme, up to which the segments are taken, and the last one
of the text, behind which the version is taken, are the same. The octets of the scheme are there
and end between two characters, so that they can be cut off. There are segments, they are well
formed, and with the scheme, the semicolon and the version they make up the text again. What
stands in front of the first dot of the version spells a number, which is the major version
unless it takes more than 64 bits; then, and only then, zero is. -/
theorem parts_meet (d : Dtmi) :
    (cut ';' (d.text.toList.drop scheme.length) = some (d.path, d.version) ∧
      cutLast ';' d.text.toList = some (scheme ++ d.path, d.version)) ∧
    (⟨scheme.length⟩ : String.Pos.Raw).IsValid d.text ∧
    d.segments ≠ [] ∧ (∀ s ∈ d.segments, Segment s.toList) ∧
    d.text = "dtmi:" ++ interpose ":" d.segments ++ ";" ++ String.ofList d.version ∧
    ∃ n, decimalDigits n = d.version.takeWhile (· ≠ '.') ∧
      (n < 2 ^ 64 → d.majorVersion = n) ∧ (d.majorVersion = 0 ↔ 2 ^ 64 ≤ n) := by
  obtain ⟨p, hp, h⟩ := d.exists_parts
  have hsegments := segments_eq hp h
  have htext := text_eq hp h
  have hmajor := majorVersion_eq hp h
  have hpos := decimalValue_pos hp.major
  refine ⟨⟨?_, ?_⟩, ?_, ?_, ?_, htext, decimalValue p.major, ?_, fun hlt => ?_, ?_⟩
  · rw [cut_text hp h, path_eq hp h, version_eq hp h]
  · rw [cutLast_text hp h, path_eq hp h, version_eq hp h]
  · rw [htext, String.append_assoc, String.append_assoc]
    exact String.Pos.Raw.isValid_iff_exists_append.2 ⟨_, _, rfl, rfl⟩
  · rw [hsegments]
    exact mt List.map_eq_nil_iff.1 hp.nonempty
  · rw [hsegments]
    refine List.forall_mem_map.2 fun s hs => ?_
    rw [String.toList_ofList]
    exact isSegment_iff.1 (hp.segments s hs)
  · rw [takeWhile_version hp h, decimalDigits_decimalValue hp.major]
  · rw [hmajor, if_pos hlt]
  · rw [hmajor]
    split_ifs with hlt
    · omega
    · omega

/-- The largest major version that fits, and the next one. -/
example :
    (⟨"dtmi:a:b;18446744073709551615.0", by decide⟩ : Dtmi).majorVersion = 18446744073709551615 ∧
      (⟨"dtmi:a:b;18446744073709551616.0", by decide⟩ : Dtmi).majorVersion = 0 := by
  decide

end Dtmi

end DeviceTwin
