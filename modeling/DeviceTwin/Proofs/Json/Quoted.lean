import DeviceTwin.Json.Quoted
import DeviceTwin.Proofs.Text.Classes

/-!
# Quoted texts are read back

Each character of a text is quoted by itself, in one of three forms: a letter behind a
backslash, a control by its code, or as it stands. A reader takes one step for each of
them, and so does one that passes over the text, so that both find the closing quote with
any bound that is longer than the text.
-/

namespace DeviceTwin.Json.Quoted

open DeviceTwin.Text

/-- The three forms of a quoted character. -/
theorem quoteChar_cases (c : Char) :
    (∃ e, quoteChar c = ['\\', e] ∧ escapeLetter? e = some c) ∨
      (quoteChar c = byCode c ∧ c.toNat < 32) ∨
      (quoteChar c = [c] ∧ c ≠ '"' ∧ c ≠ '\\' ∧ ¬ c.toNat < 32) := by
  rw [quoteChar]
  split_ifs with h₁ h₂ h₃ h₄ h₅ h₆ h₇ h₈
  · exact .inl ⟨'"', rfl, by rw [h₁]; rfl⟩
  · exact .inl ⟨'\\', rfl, by rw [h₂]; rfl⟩
  · exact .inl ⟨'b', rfl, by rw [h₃]; rfl⟩
  · exact .inl ⟨'t', rfl, by rw [h₄]; rfl⟩
  · exact .inl ⟨'n', rfl, by rw [h₅]; rfl⟩
  · exact .inl ⟨'f', rfl, by rw [h₆]; rfl⟩
  · exact .inl ⟨'r', rfl, by rw [h₇]; rfl⟩
  · exact .inr (.inl ⟨rfl, h₈⟩)
  · exact .inr (.inr ⟨rfl, h₁, h₂, h₈⟩)

theorem hexUnit_of_digits {a b c d : Char} {i j k l : ℕ} (rest : List Char)
    (ha : hexValue? a = some i) (hb : hexValue? b = some j) (hc : hexValue? c = some k)
    (hd : hexValue? d = some l) :
    hexUnit (a :: b :: c :: d :: rest) = .ok (((i * 16 + j) * 16 + k) * 16 + l, rest) := by
  have hoctets : ¬ octets (List.take 4 (a :: b :: c :: d :: rest)) < 4 := by
    have := a.utf8Size_pos
    have := b.utf8Size_pos
    have := c.utf8Size_pos
    have := d.utf8Size_pos
    simp only [List.take_succ_cons, List.take_zero, octets_cons, octets_nil]
    omega
  simp only [hexUnit, if_neg hoctets, ha, hb, hc, hd]

/-- The unit of a control spelled by its code. -/
theorem hexUnit_byCode {c : Char} (hc : c.toNat < 32) (rest : List Char) :
    hexUnit ('0' :: '0' :: hexDigit (c.toNat / 16) :: hexDigit (c.toNat % 16) :: rest) =
      .ok (c.toNat, rest) := by
  have hzero : hexValue? '0' = some 0 := by decide
  rw [hexUnit_of_digits rest hzero hzero (hexValue?_hexDigit (by omega))
    (hexValue?_hexDigit (by omega))]
  congr 2
  omega

theorem escape_letter {e c : Char} (h : escapeLetter? e = some c) (rest : List Char) :
    escape (e :: rest) = .ok (c, rest) := by
  unfold escape
  split
  · rename_i heq
    exact absurd heq (List.cons_ne_nil _ _)
  · rename_i heq
    obtain ⟨rfl, -⟩ := List.cons.inj heq
    exact absurd h (Option.some_ne_none c).symm
  · rename_i heq
    obtain ⟨rfl, rfl⟩ := List.cons.inj heq
    rw [h]

theorem escape_byCode {c : Char} (hc : c.toNat < 32) (rest : List Char) :
    escape ('u' :: '0' :: '0' :: hexDigit (c.toNat / 16) :: hexDigit (c.toNat % 16) :: rest) =
      .ok (c, rest) := by
  have htrailing : isTrailing c.toNat = false := by
    rw [isTrailing, Bool.and_eq_false_iff, decide_eq_false_iff_not]
    exact .inl (by omega)
  have hleading : isLeading c.toNat = false := by
    rw [isLeading, Bool.and_eq_false_iff, decide_eq_false_iff_not]
    exact .inl (by omega)
  rw [escape, hexUnit_byCode hc]
  simp only [bind, Except.bind, htrailing, hleading, Bool.false_eq_true, if_false,
    Char.ofNat_toNat]
  rfl

/-! ### One step for each character -/

theorem readWithin_quoteChar (b : Char) (bound : List Char) (c : Char) (rest : List Char) :
    readWithin (b :: bound) (quoteChar c ++ rest) =
      (readWithin bound rest).map fun p => (c :: p.1, p.2) := by
  have hescape : ∀ t, escape (t ++ rest) = .ok (c, rest) →
      readWithin (b :: bound) ('\\' :: (t ++ rest)) =
        (readWithin bound rest).map fun p => (c :: p.1, p.2) := by
    intro t ht
    rw [readWithin, if_neg (by decide), if_pos rfl, ht]
    rfl
  rcases quoteChar_cases c with ⟨e, hq, he⟩ | ⟨hq, hc⟩ | ⟨hq, hquote, hslash, hcontrol⟩
  · rw [hq]
    exact hescape [e] (escape_letter he rest)
  · rw [hq]
    exact hescape _ (escape_byCode hc rest)
  · rw [hq, List.singleton_append, readWithin, if_neg hquote, if_neg hslash, if_neg hcontrol]
    rfl

theorem skipWithin_quoteChar (b : Char) (bound : List Char) (c : Char) (rest : List Char) :
    skipWithin (b :: bound) (quoteChar c ++ rest) = skipWithin bound rest := by
  rcases quoteChar_cases c with ⟨e, hq, he⟩ | ⟨hq, hc⟩ | ⟨hq, hquote, hslash, hcontrol⟩
  · have hsome : (escapeLetter? e).isSome = true := Option.isSome_iff_exists.2 ⟨c, he⟩
    have hu : e ≠ 'u' := by
      rintro rfl
      exact absurd he (Option.some_ne_none c).symm
    rw [hq, List.cons_append, List.singleton_append, skipWithin, if_neg (by decide), if_pos rfl,
      if_pos hsome]
    exact hu
  · rw [hq, byCode, List.cons_append, List.cons_append, skipWithin, if_neg (by decide), if_pos rfl]
    simp only [List.cons_append, List.nil_append, hexUnit_byCode hc]
    rfl
  · rw [hq, List.singleton_append, skipWithin.eq_def]
    simp only [if_neg hquote, if_neg hslash, if_neg hcontrol]

/-! ### Whole texts -/

theorem readWithin_flatMap (rest s : List Char) :
    ∀ {bound : List Char}, s.length < bound.length →
      readWithin bound (s.flatMap quoteChar ++ '"' :: rest) = .ok (s, rest) := by
  induction s with
  | nil =>
      intro bound h
      obtain ⟨b, bound, rfl⟩ := List.exists_cons_of_length_pos h
      rw [List.flatMap_nil, List.nil_append, readWithin, if_pos rfl]
  | cons c s ih =>
      intro bound h
      obtain ⟨b, bound, rfl⟩ := List.exists_cons_of_length_pos (Nat.zero_lt_of_lt h)
      rw [List.flatMap_cons, List.append_assoc, readWithin_quoteChar,
        ih (Nat.lt_of_succ_lt_succ h)]
      rfl

theorem skipWithin_flatMap (rest s : List Char) :
    ∀ {bound : List Char}, s.length < bound.length →
      skipWithin bound (s.flatMap quoteChar ++ '"' :: rest) = .ok rest := by
  induction s with
  | nil =>
      intro bound h
      obtain ⟨b, bound, rfl⟩ := List.exists_cons_of_length_pos h
      rw [List.flatMap_nil, List.nil_append, skipWithin.eq_def]
      simp only [if_pos]
  | cons c s ih =>
      intro bound h
      obtain ⟨b, bound, rfl⟩ := List.exists_cons_of_length_pos (Nat.zero_lt_of_lt h)
      rw [List.flatMap_cons, List.append_assoc, skipWithin_quoteChar,
        ih (Nat.lt_of_succ_lt_succ h)]

theorem length_le_flatMap (s : List Char) : s.length ≤ (s.flatMap quoteChar).length := by
  induction s with
  | nil => exact le_rfl
  | cons c s ih =>
      have hpos : 0 < (quoteChar c).length := by
        rcases quoteChar_cases c with ⟨e, hq, -⟩ | ⟨hq, -⟩ | ⟨hq, -⟩ <;>
          rw [hq] <;> exact Nat.succ_pos _
      rw [List.flatMap_cons, List.length_append, List.length_cons]
      omega

theorem length_lt_quoted (rest s : List Char) :
    s.length < (s.flatMap quoteChar ++ '"' :: rest).length := by
  have := length_le_flatMap s
  rw [List.length_append, List.length_cons]
  omega

/-- A quoted text is read as that text, up to its closing quote. -/
theorem text_quoted (rest : List Char) (s : String) :
    text (s.toList.flatMap quoteChar ++ '"' :: rest) = .ok s := by
  rw [text, read, readWithin_flatMap rest s.toList (length_lt_quoted rest s.toList)]
  exact congrArg Except.ok String.ofList_toList

theorem skip_quoted (rest s : List Char) :
    skip (s.flatMap quoteChar ++ '"' :: rest) = .ok rest :=
  skipWithin_flatMap rest s (length_lt_quoted rest s)

end DeviceTwin.Json.Quoted
