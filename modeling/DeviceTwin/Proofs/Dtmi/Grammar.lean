import DeviceTwin.Dtmi.Check
import DeviceTwin.Proofs.Dtmi.Check
import DeviceTwin.Proofs.Json.Reader

/-!
# The language of model identifiers

The grammar is said here on the characters themselves, without the tests that the checker
runs: `Parts.Grammatical`. Its texts are the ones in which no problem is found, each is
put together in one way only, and every way to come by an identifier, out of a string or
out of a JSON document, accepts these texts and keeps them as they are.
-/

namespace DeviceTwin.Dtmi

open DeviceTwin.Text DeviceTwin.Json

/-! ### Segments and numbers -/

def Letter (c : Char) : Prop :=
  ('A' ≤ c ∧ c ≤ 'Z') ∨ ('a' ≤ c ∧ c ≤ 'z')

def Digit (c : Char) : Prop :=
  '0' ≤ c ∧ c ≤ '9'

/-- A letter and behind it letters, digits and underscores. -/
inductive Segment : List Char → Prop
  | mk (first : Char) (rest : List Char) (hfirst : Letter first)
      (hrest : ∀ c ∈ rest, Letter c ∨ Digit c ∨ c = '_') : Segment (first :: rest)

/-- A row of digits that begins with none but the digits from one to nine. -/
inductive Major : List Char → Prop
  | mk (first : Char) (rest : List Char) (hfirst : '1' ≤ first ∧ first ≤ '9')
      (hrest : ∀ c ∈ rest, Digit c) : Major (first :: rest)

/-- Zero, or a number that could be a major version. -/
def Minor (s : List Char) : Prop :=
  s = ['0'] ∨ Major s

theorem char_le_iff {a b : Char} : a ≤ b ↔ a.toNat ≤ b.toNat :=
  Iff.rfl

theorem isLetter_iff {c : Char} : isLetter c = true ↔ Letter c := by
  simp only [isLetter, isUpper, isLower, Letter, char_le_iff, Bool.or_eq_true, Bool.and_eq_true,
    decide_eq_true_eq]
  exact Iff.rfl

theorem isDigit_iff_digit {c : Char} : isDigit c = true ↔ Digit c := by
  simp only [isDigit, Digit, char_le_iff, Bool.and_eq_true, decide_eq_true_eq]
  exact Iff.rfl

theorem isSegmentChar_iff {c : Char} :
    isSegmentChar c = true ↔ Letter c ∨ Digit c ∨ c = '_' := by
  rw [isSegmentChar, Bool.or_eq_true, Bool.or_eq_true, isLetter_iff, isDigit_iff_digit, beq_iff_eq,
    or_assoc]

theorem isSegment_iff {s : List Char} : isSegment s = true ↔ Segment s := by
  cases s with
  | nil => exact ⟨fun h => absurd h Bool.false_ne_true, nofun⟩
  | cons c s =>
      simp only [isSegment, Bool.and_eq_true, List.all_eq_true, isLetter_iff, isSegmentChar_iff]
      constructor
      · rintro ⟨hfirst, hrest⟩
        exact ⟨c, s, hfirst, hrest⟩
      · rintro ⟨_, _, hfirst, hrest⟩
        exact ⟨hfirst, hrest⟩

/-- A digit that is not the zero. -/
theorem isDigit_and_ne_zero_iff {c : Char} :
    (isDigit c && c != '0') = true ↔ '1' ≤ c ∧ c ≤ '9' := by
  have hzero : c ≠ '0' ↔ c.toNat ≠ 48 :=
    not_congr ⟨fun h => congrArg Char.toNat h, fun h => Char.toNat_inj.1 h⟩
  have hone : '1'.toNat = 49 := rfl
  have hnine : '9'.toNat = 57 := rfl
  rw [Bool.and_eq_true, bne_iff_ne, hzero, char_le_iff, char_le_iff, isDigit, Bool.and_eq_true,
    decide_eq_true_eq, decide_eq_true_eq]
  omega

theorem isMajor_iff {s : List Char} : isMajor s = true ↔ Major s := by
  cases s with
  | nil => exact ⟨fun h => absurd h Bool.false_ne_true, nofun⟩
  | cons c s =>
      rw [isMajor, Bool.and_eq_true, isDigit_and_ne_zero_iff, List.all_eq_true]
      simp only [isDigit_iff_digit]
      constructor
      · rintro ⟨hfirst, hrest⟩
        exact ⟨c, s, hfirst, hrest⟩
      · rintro ⟨_, _, hfirst, hrest⟩
        exact ⟨hfirst, hrest⟩

theorem isMinor_iff {s : List Char} : isMinor s = true ↔ Minor s := by
  rw [isMinor, Bool.or_eq_true, beq_iff_eq, isMajor_iff, Minor]

/-! ### Identifiers -/

namespace Parts

/-- What the grammar asks of the parts of an identifier. -/
structure Grammatical (p : Parts) : Prop where
  nonempty : p.segments ≠ []
  segments : ∀ s ∈ p.segments, Segment s
  major : Major p.major
  minors : ∀ m ∈ p.minors, Minor m

theorem wellFormed_iff {p : Parts} : p.WellFormed ↔ p.Grammatical :=
  ⟨fun h => ⟨h.nonempty, fun s hs => isSegment_iff.1 (h.segments s hs), isMajor_iff.1 h.major,
      fun m hm => isMinor_iff.1 (h.minors m hm)⟩,
    fun h => ⟨h.nonempty, fun s hs => isSegment_iff.2 (h.segments s hs), isMajor_iff.2 h.major,
      fun m hm => isMinor_iff.2 (h.minors m hm)⟩⟩

/-- Well-formed parts can be taken out of their text again: the path ends at the first
semicolon, and the parts are the pieces of path and version. -/
theorem WellFormed.text_inj {p q : Parts} (hp : p.WellFormed) (hq : q.WellFormed)
    (h : p.text = q.text) : p = q := by
  have hbehind : join ':' p.segments ++ ';' :: join '.' (p.major :: p.minors) =
      join ':' q.segments ++ ';' :: join '.' (q.major :: q.minors) := by
    rw [text, text, List.append_assoc, List.append_assoc] at h
    exact List.append_cancel_left h
  have hcut := congrArg (cut ';') hbehind
  rw [cut_append hp.semicolon_not_mem, cut_append hq.semicolon_not_mem, Option.some.injEq,
    Prod.mk.injEq] at hcut
  obtain ⟨hpath, hversion⟩ := hcut
  have hsegments : p.segments = q.segments := by
    rw [← hp.pieces_path, hpath, hq.pieces_path]
  have hnumbers : p.major :: p.minors = q.major :: q.minors := by
    rw [← hp.pieces_version, hversion, hq.pieces_version]
  obtain ⟨segments, major, minors⟩ := p
  obtain ⟨hmajor, hminors⟩ := List.cons.inj hnumbers
  subst hsegments hmajor hminors
  rfl

end Parts

theorem isDtmi_iff {s : List Char} : IsDtmi s ↔ ∃ p : Parts, p.Grammatical ∧ s = p.text :=
  exists_congr fun _ => and_congr_left' Parts.wellFormed_iff

/-! ### Ways to an identifier -/

/-- An identifier is made of a string if no problem is found in it, and then of all of it. -/
theorem ofText_eq_ok_iff {s : String} {d : Dtmi} :
    ofText s = .ok d ↔ problem? s.toList = none ∧ d.text = s := by
  unfold ofText
  split
  · rename_i hnone
    rw [Except.ok.injEq]
    constructor
    · rintro rfl
      exact ⟨hnone, rfl⟩
    · rintro ⟨-, rfl⟩
      rfl
  · rename_i p hsome
    simp [hsome]

theorem exists_ofText_eq_ok_iff {s : String} :
    (∃ d, ofText s = .ok d) ↔ problem? s.toList = none := by
  simp only [ofText_eq_ok_iff, exists_and_left]
  exact and_iff_left_of_imp fun h => ⟨⟨s, h⟩, rfl⟩

/-- A document is read as an identifier if it is read as a string in which no problem is
found. -/
theorem read_eq_ok_iff {c : Context} {doc : Document} {d : Dtmi} :
    Dtmi.read c doc = .ok d ↔
      Reader.string c doc = .ok d.text ∧ problem? d.text.toList = none := by
  rw [Dtmi.read, bind_eq_ok_iff]
  constructor
  · rintro ⟨s, hs, h⟩
    split at h
    · rename_i id hid
      obtain rfl := Except.ok.inj h
      obtain ⟨hnone, rfl⟩ := ofText_eq_ok_iff.1 hid
      exact ⟨hs, hnone⟩
    · exact nomatch h
  · rintro ⟨hs, hnone⟩
    refine ⟨d.text, hs, ?_⟩
    rw [ofText_eq_ok_iff.2 ⟨hnone, rfl⟩]
    rfl

theorem readText_eq_ok_iff [RealReader] {text : String} {d : Dtmi} :
    Dtmi.read.readText text = .ok d ↔
      Reader.string.readText text = .ok d.text ∧ problem? d.text.toList = none := by
  rw [Reader.readText_eq_ok_iff, Reader.readText_eq_ok_iff, read_eq_ok_iff, and_right_comm]

/-- The identifiers with a given text are as many as the text has no problems: one or
none. -/
theorem exists_text_eq_and_iff {s : String} {P : String → Prop} :
    (∃ d : Dtmi, (P d.text ∧ problem? d.text.toList = none) ∧ d.text = s) ↔
      P s ∧ problem? s.toList = none := by
  constructor
  · rintro ⟨d, h, rfl⟩
    exact h
  · rintro ⟨hs, hnone⟩
    exact ⟨⟨s, hnone⟩, ⟨hs, hnone⟩, rfl⟩

/-- No problem is found in exactly the texts of the grammar, each of which comes from one
choice of parts. A string is accepted as an identifier exactly if no problem is found in
it, and so is a string that a JSON document holds, inside a larger document as in a text
of its own; the identifier has the string for its text, and there are no others. -/
theorem identifiers_are_grammatical [RealReader] (s : String) :
    (problem? s.toList = none ↔ ∃ p : Parts, p.Grammatical ∧ s.toList = p.text) ∧
    (∀ p q : Parts, p.Grammatical ∧ s.toList = p.text → q.Grammatical ∧ s.toList = q.text →
      p = q) ∧
    (∀ d : Dtmi, ofText s = .ok d ↔ problem? s.toList = none ∧ d.text = s) ∧
    ((∃ d, ofText s = .ok d) ↔ problem? s.toList = none) ∧
    (∀ (c : Context) (doc : Document), (∃ d, Dtmi.read c doc = .ok d ∧ d.text = s) ↔
      Reader.string c doc = .ok s ∧ problem? s.toList = none) ∧
    (∀ json : String, (∃ d, Dtmi.read.readText json = .ok d ∧ d.text = s) ↔
      Reader.string.readText json = .ok s ∧ problem? s.toList = none) ∧
    ∀ d : Dtmi, ∃ p : Parts, p.Grammatical ∧ d.text.toList = p.text := by
  refine ⟨problem?_eq_none_iff.trans isDtmi_iff, ?_, fun d => ofText_eq_ok_iff,
    exists_ofText_eq_ok_iff, fun c doc => ?_, fun json => ?_, fun d => ?_⟩
  · rintro p q ⟨hp, hs⟩ ⟨hq, hs'⟩
    exact (Parts.wellFormed_iff.2 hp).text_inj (Parts.wellFormed_iff.2 hq) (hs.symm.trans hs')
  · simp only [read_eq_ok_iff]
    exact exists_text_eq_and_iff (P := fun s => Reader.string c doc = .ok s)
  · simp only [readText_eq_ok_iff]
    exact exists_text_eq_and_iff (P := fun s => Reader.string.readText json = .ok s)
  · exact isDtmi_iff.1 (problem?_eq_none_iff.1 d.valid)

end DeviceTwin.Dtmi
