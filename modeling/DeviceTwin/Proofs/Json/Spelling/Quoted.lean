import DeviceTwin.Proofs.Json.Quoted
import DeviceTwin.Proofs.Results

/-!
# The spellings of a quoted text

Between its quotes a string is a row of parts: characters that stand for themselves, letters
behind a backslash and UTF-16 units in hexadecimal digits. Every such row is passed over, and
nothing else is (`skip_eq_ok_iff`). It is read as a text if each half of a pair of units stands
beside its other half, and then as the text that the parts name (`toOption_text`).
-/

namespace DeviceTwin.Json.Quoted

open DeviceTwin.Text

structure HexDigit where
  char : Char
  value : ℕ
  hexValue : hexValue? char = some value

/-- One part of a string as it is spelled. -/
inductive Part where
  | plain (c : Char) (quote : c ≠ '"') (slash : c ≠ '\\') (control : ¬ c.toNat < 32)
  | letter (e c : Char) (names : escapeLetter? e = some c)
  | unit (i j k l : HexDigit)

namespace Part

def spell : Part → List Char
  | plain c _ _ _ => [c]
  | letter e _ _ => ['\\', e]
  | unit i j k l => ['\\', 'u', i.char, j.char, k.char, l.char]

/-- The number of a UTF-16 unit. -/
def unitOf (i j k l : HexDigit) : ℕ :=
  ((i.value * 16 + j.value) * 16 + k.value) * 16 + l.value

/-- The character of a pair, if the part is its second half. -/
def joined? (leading : ℕ) : Part → Option Char
  | unit i j k l =>
    if isTrailing (unitOf i j k l) then some (joined leading (unitOf i j k l)) else none
  | _ => none

/-- The characters that a row of parts names, if no half of a pair stands alone. -/
def meaning : List Part → Option (List Char)
  | [] => some []
  | plain c _ _ _ :: ps => (meaning ps).map (c :: ·)
  | letter _ c _ :: ps => (meaning ps).map (c :: ·)
  | unit i j k l :: ps =>
    let n := unitOf i j k l
    if isTrailing n then none
    else if isLeading n then
      match ps with
      | [] => none
      | p :: ps => (joined? n p).bind fun c => (meaning ps).map (c :: ·)
    else (meaning ps).map (Char.ofNat n :: ·)

/-- The text that a row of parts names. -/
def named (ps : List Part) : Option String :=
  (meaning ps).map String.ofList

end Part

/-- Each character may stand for itself. -/
def IsPlain (s : String) : Prop :=
  ∀ c ∈ s.toList, c ≠ '"' ∧ c ≠ '\\' ∧ ¬ c.toNat < 32

instance (s : String) : Decidable (IsPlain s) :=
  List.decidableBAll _ s.toList

namespace Part

/-- A text character by character. -/
def plains (s : String) (h : IsPlain s) : List Part :=
  s.toList.pmap (fun c hc => plain c hc.1 hc.2.1 hc.2.2) h

end Part

open Quoted.Part

variable {ps : List Part} {bound rest : List Char}

theorem hexUnit_spelled (i j k l : HexDigit) (rest : List Char) :
    hexUnit (i.char :: j.char :: k.char :: l.char :: rest) = .ok (unitOf i j k l, rest) :=
  hexUnit_of_digits rest i.hexValue j.hexValue k.hexValue l.hexValue

/-- Four hexadecimal digits are read as a unit, and nothing else is. -/
theorem exists_of_hexUnit {s : List Char} {n : ℕ} (h : hexUnit s = .ok (n, rest)) :
    ∃ i j k l : HexDigit,
      s = i.char :: j.char :: k.char :: l.char :: rest ∧ n = unitOf i j k l := by
  unfold hexUnit at h
  split_ifs at h
  split at h
  · rename_i a b c d more _
    split at h
    · rename_i i j k l hi hj hk hl
      obtain ⟨rfl, rfl⟩ := Prod.mk.inj (Except.ok.inj h)
      exact ⟨⟨a, i, hi⟩, ⟨b, j, hj⟩, ⟨c, k, hk⟩, ⟨d, l, hl⟩, rfl, rfl⟩
    · exact nomatch h
  · exact nomatch h

theorem letter_ne_unit {e c : Char} (h : escapeLetter? e = some c) : e ≠ 'u' := by
  rintro rfl
  exact nomatch h

/-! ### Passing over -/

theorem skipWithin_spelled (b : Char) (bound : List Char) (p : Part) (rest : List Char) :
    skipWithin (b :: bound) (p.spell ++ rest) = skipWithin bound rest := by
  cases p with
  | plain c quote slash control =>
      rw [spell, List.singleton_append, skipWithin.eq_def]
      simp only [if_neg quote, if_neg slash, if_neg control]
  | letter e c names =>
      have hsome : (escapeLetter? e).isSome = true := Option.isSome_iff_exists.2 ⟨c, names⟩
      rw [spell, List.cons_append, List.singleton_append, skipWithin, if_neg (by decide),
        if_pos rfl, if_pos hsome]
      exact letter_ne_unit names
  | unit i j k l =>
      rw [spell, List.cons_append, List.cons_append, skipWithin, if_neg (by decide), if_pos rfl]
      simp only [List.cons_append, List.nil_append, hexUnit_spelled]
      rfl

theorem skipWithin_parts (rest : List Char) :
    ∀ {ps : List Part} {bound : List Char}, ps.length < bound.length →
      skipWithin bound (ps.flatMap spell ++ '"' :: rest) = .ok rest
  | [], b :: bound, _ => by
      rw [List.flatMap_nil, List.nil_append, skipWithin.eq_def]
      simp only [if_pos]
  | p :: ps, b :: bound, h => by
      rw [List.flatMap_cons, List.append_assoc, skipWithin_spelled,
        skipWithin_parts rest (Nat.lt_of_succ_lt_succ h)]

theorem exists_of_skipWithin {s : List Char} (h : skipWithin bound s = .ok rest) :
    ∃ ps : List Part, s = ps.flatMap spell ++ '"' :: rest := by
  fun_induction skipWithin bound s with
  | case1 | case2 | case4 | case7 | case8 => exact nomatch h
  | case3 _ _ s =>
      obtain rfl := Except.ok.inj h
      exact ⟨[], rfl⟩
  | case5 _ bound s _ ih =>
      obtain ⟨⟨n, more⟩, hunit, h⟩ := bind_eq_ok_iff.1 h
      obtain ⟨ps, rfl⟩ := ih more h
      obtain ⟨i, j, k, l, rfl, -⟩ := exists_of_hexUnit hunit
      exact ⟨.unit i j k l :: ps, rfl⟩
  | case6 _ bound e s hu hsome _ ih =>
      obtain ⟨c, names⟩ := Option.isSome_iff_exists.1 hsome
      obtain ⟨ps, rfl⟩ := ih h
      exact ⟨.letter e c names :: ps, rfl⟩
  | case9 _ bound c s quote slash control ih =>
      obtain ⟨ps, rfl⟩ := ih h
      exact ⟨.plain c quote slash control :: ps, rfl⟩

theorem length_le_spelled (ps : List Part) : ps.length ≤ (ps.flatMap spell).length := by
  induction ps with
  | nil => exact le_rfl
  | cons p ps ih =>
      have hpos : 0 < p.spell.length := by cases p <;> exact Nat.succ_pos _
      rw [List.flatMap_cons, List.length_append, List.length_cons]
      omega

theorem length_lt_spelled (ps : List Part) (rest : List Char) :
    ps.length < (ps.flatMap spell ++ '"' :: rest).length := by
  have := length_le_spelled ps
  rw [List.length_append, List.length_cons]
  omega

/-- What is passed over is a row of parts up to a closing quote. -/
theorem skip_eq_ok_iff {s : List Char} :
    skip s = .ok rest ↔ ∃ ps : List Part, s = ps.flatMap spell ++ '"' :: rest := by
  constructor
  · exact exists_of_skipWithin
  · rintro ⟨ps, rfl⟩
    exact skipWithin_parts rest (length_lt_spelled ps rest)

/-! ### Reading -/

theorem escape_unit (i j k l : HexDigit) (rest : List Char) :
    escape ('u' :: i.char :: j.char :: k.char :: l.char :: rest) =
      if isTrailing (unitOf i j k l) then .error (.here .loneSurrogate rest)
      else if isLeading (unitOf i j k l) then trailingHalf (unitOf i j k l) rest
      else .ok (Char.ofNat (unitOf i j k l), rest) := by
  rw [escape, hexUnit_spelled]
  rfl

/-- Behind the first half of a pair only its second half gives a character. -/
theorem toOption_trailingHalf (n : ℕ) (p : Part) (rest : List Char) :
    (trailingHalf n (p.spell ++ rest)).toOption = (joined? n p).map fun c => (c, rest) := by
  cases p with
  | plain c quote slash control =>
      unfold trailingHalf
      split
      · rename_i heq
        exact nomatch heq
      all_goals
        rename_i heq
        first
        | exact absurd (List.cons.inj heq).1 slash
        | rfl
  | letter e c names =>
      unfold trailingHalf
      split
      · rename_i heq
        exact nomatch heq
      · rename_i heq
        exact nomatch heq
      · rename_i heq
        exact absurd (List.cons.inj (List.cons.inj heq).2).1 (letter_ne_unit names)
      all_goals rfl
  | unit i j k l =>
      simp only [spell, List.cons_append, List.nil_append, trailingHalf, hexUnit_spelled, joined?,
        ok_bind]
      split_ifs <;> rfl

/-- A character that was read stands in front of those that are read behind it. -/
def before (c : Char) (p : List Char × List Char) : List Char × List Char :=
  (c :: p.1, p.2)

theorem map_before (c : Char) (rest : List Char) (o : Option (List Char)) :
    (o.map fun cs => (cs, rest)).map (before c) = (o.map (c :: ·)).map fun cs => (cs, rest) := by
  cases o <;> rfl

theorem toOption_readWithin_plain (b : Char) (bound : List Char) {c : Char} (s : List Char)
    (quote : c ≠ '"') (slash : c ≠ '\\') (control : ¬ c.toNat < 32) :
    (readWithin (b :: bound) (c :: s)).toOption =
      (readWithin bound s).toOption.map (before c) := by
  rw [readWithin, if_neg quote, if_neg slash, if_neg control]
  exact toOption_map (before c) (readWithin bound s)

theorem toOption_readWithin_escape (b : Char) (bound s : List Char) :
    (readWithin (b :: bound) ('\\' :: s)).toOption =
      (escape s).toOption.bind fun p => (readWithin bound p.2).toOption.map (before p.1) := by
  rw [readWithin, if_neg (by decide), if_pos rfl, toOption_bind]
  exact congrArg _ (funext fun p => toOption_map (before p.1) (readWithin bound p.2))

theorem toOption_readWithin (rest : List Char) :
    ∀ {ps : List Part} {bound : List Char}, ps.length < bound.length →
      (readWithin bound (ps.flatMap spell ++ '"' :: rest)).toOption =
        (meaning ps).map fun cs => (cs, rest)
  | [], b :: bound, _ => by
      rw [List.flatMap_nil, List.nil_append, readWithin, if_pos rfl]
      rfl
  | .plain c quote slash control :: ps, b :: bound, h => by
      have ih := toOption_readWithin rest (Nat.lt_of_succ_lt_succ h)
      rw [List.flatMap_cons, List.append_assoc, spell, List.singleton_append,
        toOption_readWithin_plain b bound _ quote slash control]
      exact (congrArg _ ih).trans (map_before c rest (meaning ps))
  | .letter e c names :: ps, b :: bound, h => by
      have ih := toOption_readWithin rest (Nat.lt_of_succ_lt_succ h)
      rw [List.flatMap_cons, List.append_assoc, spell, List.cons_append, List.singleton_append,
        toOption_readWithin_escape, escape_letter names]
      exact (congrArg _ ih).trans (map_before c rest (meaning ps))
  | .unit i j k l :: ps, b :: bound, h => by
      rw [List.flatMap_cons, List.append_assoc, meaning.eq_def]
      simp only [spell, List.cons_append, List.nil_append, toOption_readWithin_escape, escape_unit]
      split_ifs with htrailing hleading
      · rfl
      · cases ps with
        | nil => rfl
        | cons p ps =>
            have ih := toOption_readWithin rest (Nat.lt_of_succ_lt (Nat.lt_of_succ_lt_succ h))
            rw [List.flatMap_cons, List.append_assoc, toOption_trailingHalf]
            dsimp only
            cases joined? (unitOf i j k l) p with
            | none => rfl
            | some c => exact (congrArg _ ih).trans (map_before c rest (meaning ps))
      · have ih := toOption_readWithin rest (Nat.lt_of_succ_lt_succ h)
        exact (congrArg _ ih).trans (map_before _ rest (meaning ps))

/-- A row of parts is read as the text that it names, if it names one. -/
theorem toOption_text (ps : List Part) (rest : List Char) :
    (text (ps.flatMap spell ++ '"' :: rest)).toOption = named ps := by
  rw [text, toOption_map, read, toOption_readWithin rest (length_lt_spelled ps rest),
    Option.map_map]
  rfl

end DeviceTwin.Json.Quoted
