import DeviceTwin.Toml.Writing
import Mathlib.Logic.Basic
import Mathlib.Data.List.Basic

/-!
# Strings of TOML documents are read back

A string is written in one of four kinds of quotes. Between short ones each character is
spelled by itself, and no quote of the text stands unescaped. Between long ones up to two
quotes of the text may stand in a row, also right before the closing ones; `Spells` is what
both kinds of long strings have in common, and `Spells.read` is the law of their readers.
The text of a string is read back whatever it is (`read?_written`).
-/

namespace DeviceTwin.Toml.Quoted

open DeviceTwin.Text

/-! ### Escapes -/

theorem isPlain_iff {c : Char} :
    isPlain c = true ↔ c = '\t' ∨ 32 ≤ c.toNat ∧ c.toNat ≠ 127 := by
  simp [isPlain]

theorem toNat_lt_of_not_isPlain {c : Char} (h : ¬ isPlain c = true) : c.toNat < 128 := by
  rw [isPlain_iff] at h
  by_contra hle
  exact h (.inr (by omega))

theorem escape?_letter {e c : Char} (h : escapeLetter? e = some c) (rest : List Char) :
    escape? (e :: rest) = some (c, rest) := by
  unfold escape?
  split
  · rename_i heq
    obtain ⟨rfl, -⟩ := List.cons.inj heq
    exact absurd h (Option.some_ne_none c).symm
  · rename_i heq
    obtain ⟨rfl, -⟩ := List.cons.inj heq
    exact absurd h (Option.some_ne_none c).symm
  · rename_i heq
    obtain ⟨rfl, rfl⟩ := List.cons.inj heq
    rw [h]
    rfl
  · rename_i heq
    exact absurd heq (List.cons_ne_nil _ _)

/-- Two digits spell an ASCII character. -/
theorem charOfHex?_twoDigits :
    ∀ n < 128, charOfHex? ('0' :: '0' :: twoDigits n) = some (Char.ofNat n) := by
  decide

theorem escape?_byCode {c : Char} (h : c.toNat < 128) (rest : List Char) :
    escape? ('u' :: '0' :: '0' :: twoDigits c.toNat ++ rest) = some (c, rest) := by
  have hchar := charOfHex?_twoDigits c.toNat h
  rw [Char.ofNat_toNat] at hchar
  have htake : ('0' :: '0' :: twoDigits c.toNat ++ rest).take 4 =
      '0' :: '0' :: twoDigits c.toNat := rfl
  have hdrop : ('0' :: '0' :: twoDigits c.toNat ++ rest).drop 4 = rest := rfl
  have hlength : 4 ≤ ('0' :: '0' :: twoDigits c.toNat ++ rest).length := by
    simp [twoDigits]
  rw [List.cons_append, escape?, if_pos hlength, htake, hdrop, hchar]
  rfl

/-- A character other than the quote is escaped, is a line break in a long string, or stands for
itself. -/
theorem escapeOf?_cases (long : Bool) (c : Char) :
    (∃ e t, escapeOf? long c = some ('\\' :: e :: t) ∧ isBlank e = false ∧ e ≠ '\n' ∧ e ≠ '\r' ∧
        ∀ rest, escape? (e :: t ++ rest) = some (c, rest)) ∨
      (escapeOf? long c = none ∧ c = '\n' ∧ long = true) ∨
      (escapeOf? long c = none ∧ isPlain c = true ∧ c ≠ '\\') := by
  have hletter : ∀ e, escapeLetter? e = some c → isBlank e = false ∧ e ≠ '\n' ∧ e ≠ '\r' →
      ∃ e' t, some ['\\', e] = some ('\\' :: e' :: t) ∧ isBlank e' = false ∧ e' ≠ '\n' ∧
        e' ≠ '\r' ∧ ∀ rest, escape? (e' :: t ++ rest) = some (c, rest) :=
    fun e he hblank =>
      ⟨e, [], rfl, hblank.1, hblank.2.1, hblank.2.2, fun rest => escape?_letter he rest⟩
  rw [escapeOf?]
  split_ifs with h₁ h₂ h₃ hlong h₄ h₅ h₆ h₇
  · exact .inl (hletter 'b' (by rw [h₁]; rfl) (by decide))
  · exact .inl (hletter 't' (by rw [h₂]; rfl) (by decide))
  · exact .inr (.inl ⟨rfl, h₃, hlong⟩)
  · exact .inl (hletter 'n' (by rw [h₃]; rfl) (by decide))
  · exact .inl (hletter 'f' (by rw [h₄]; rfl) (by decide))
  · exact .inl (hletter 'r' (by rw [h₅]; rfl) (by decide))
  · exact .inl (hletter '\\' (by rw [h₆]; rfl) (by decide))
  · exact .inr (.inr ⟨rfl, h₇, h₆⟩)
  · exact .inl ⟨'u', _, rfl, rfl, by decide, by decide,
      fun rest => escape?_byCode (toNat_lt_of_not_isPlain h₇) rest⟩

/-- What a character other than the quote is spelled as. -/
def spelled (long : Bool) (c : Char) : List Char :=
  (escapeOf? long c).getD [c]

theorem escaped_cons_of_ne (long : Bool) (n : ℕ) {c : Char} (hc : c ≠ '"') (s : List Char) :
    escaped long n (c :: s) = spelled long c ++ escaped long 0 s := by
  rw [escaped, if_neg hc, spelled]

theorem spelled_cases (long : Bool) (c : Char) :
    (∃ e t, spelled long c = '\\' :: e :: t ∧ isBlank e = false ∧ e ≠ '\n' ∧ e ≠ '\r' ∧
        ∀ rest, escape? (e :: t ++ rest) = some (c, rest)) ∨
      (spelled long c = ['\n'] ∧ c = '\n' ∧ long = true) ∨
      (spelled long c = [c] ∧ isPlain c = true ∧ c ≠ '\\') := by
  rw [spelled]
  rcases escapeOf?_cases long c with ⟨e, t, h, hescape⟩ | ⟨h, rfl, hlong⟩ | ⟨h, hplain⟩
  · exact .inl ⟨e, t, by rw [h]; rfl, hescape⟩
  · exact .inr (.inl ⟨by rw [h]; rfl, rfl, hlong⟩)
  · exact .inr (.inr ⟨by rw [h]; rfl, hplain⟩)

/-! ### Short strings -/

theorem basic_escape {x y : List Char} {c : Char} (h : escape? x = some (c, y)) (n : ℕ) :
    basic (n + 1) ('\\' :: x) = (basic n y).cons c := by
  rw [basic, if_neg (by decide), if_pos rfl, h]
  rfl

theorem basic_spelled {c : Char} (hc : c ≠ '"') (n : ℕ) (y : List Char) :
    basic (n + 1) (spelled false c ++ y) = (basic n y).cons c := by
  rcases spelled_cases false c with ⟨e, t, h, -, -, -, hescape⟩ | ⟨-, -, hlong⟩ | ⟨h, hplain, hne⟩
  · rw [h]
    exact basic_escape (hescape y) n
  · cases hlong
  · rw [h, List.singleton_append, basic, if_neg hc, if_neg hne, if_pos hplain]

/-- The string of a short text, with any bound above its length. -/
theorem basic_escaped (rest s : List Char) (k : ℕ) :
    ∀ {n : ℕ}, s.length < n → basic n (escaped false k s ++ '"' :: rest) = some (s, rest) := by
  induction s generalizing k with
  | nil =>
      intro n h
      obtain ⟨n, rfl⟩ := Nat.exists_eq_succ_of_ne_zero (Nat.ne_zero_of_lt h)
      rw [escaped, List.nil_append, basic, if_pos rfl]
  | cons c s ih =>
      intro n h
      obtain ⟨n, rfl⟩ := Nat.exists_eq_succ_of_ne_zero (Nat.ne_zero_of_lt h)
      have hlength : s.length < n := Nat.lt_of_succ_lt_succ h
      by_cases hc : c = '"'
      · subst hc
        have hquote : escaped false k ('"' :: s) = '\\' :: '"' :: escaped false 0 s := by
          simp [escaped]
        rw [hquote, List.cons_append, List.cons_append, basic_escape (escape?_letter rfl _),
          ih 0 hlength]
        rfl
      · rw [escaped_cons_of_ne false k hc, List.append_assoc, basic_spelled hc, ih 0 hlength]
        rfl

theorem literal_append {s : List Char} (hplain : ∀ c ∈ s, isPlain c = true) (hsingle : single ∉ s)
    (rest : List Char) : literal (s ++ single :: rest) = some (s, rest) := by
  induction s with
  | nil => rw [List.nil_append, literal, if_pos rfl]
  | cons c s ih =>
      obtain ⟨hc, hplain⟩ := List.forall_mem_cons.1 hplain
      obtain ⟨hne, hsingle⟩ := not_or.1 (mt List.mem_cons.2 hsingle)
      rw [List.cons_append, literal, if_neg (Ne.symm hne), if_pos hc, ih hplain hsingle]
      rfl

/-! ### Long strings -/

section Long

variable {q : Char}

theorem behindThree?_self (q : Char) (s : List Char) :
    behindThree? q (q :: q :: q :: s) = some s := by
  simp [behindThree?]

theorem behindThree?_of_ne {a : Char} (h : a ≠ q) (s : List Char) :
    behindThree? q (a :: s) = none := by
  match s with
  | [] | [_] => rfl
  | b :: c :: s => simp [behindThree?, h]

theorem behindThree?_of_second_ne {b : Char} (h : b ≠ q) (a : Char) (s : List Char) :
    behindThree? q (a :: b :: s) = none := by
  cases s with
  | nil => rfl
  | cons c s => simp [behindThree?, h]

theorem behindThree?_of_third_ne {c : Char} (h : c ≠ q) (a b : Char) (s : List Char) :
    behindThree? q (a :: b :: c :: s) = none := by
  simp [behindThree?, h]

/-- What may stand behind a string in the quote `q`: anything but that quote. -/
def Ends (q : Char) (rest : List Char) : Prop :=
  ∀ a s, rest = a :: s → a ≠ q

theorem closing_zero {rest : List Char} (h : Ends q rest) : closing q rest = some ([], rest) := by
  match rest with
  | [] => rfl
  | [a] => rw [closing, if_neg (h a [] rfl)]
  | a :: b :: s => rw [closing, if_neg (h a _ rfl)]

theorem closing_one {rest : List Char} (h : Ends q rest) :
    closing q (q :: rest) = some ([q], rest) := by
  cases rest with
  | nil => rw [closing, if_pos rfl]
  | cons b s => rw [closing, if_pos rfl, if_neg (h b s rfl)]

theorem closing_two (q : Char) (rest : List Char) :
    closing q (q :: q :: rest) = some ([q, q], rest) := by
  rw [closing, if_pos rfl, if_pos rfl]

/-- A reader of strings between three quotes. -/
structure IsLong (q : Char) (R : ℕ → List Char → Found) : Prop where
  close : ∀ n s, R (n + 1) (q :: q :: q :: s) = closing q s
  quote : ∀ n s, behindThree? q (q :: s) = none → R (n + 1) (q :: s) = (R n s).cons q

/-- A row of characters spells a text for a reader: at most two quotes of the text stand in a
row, and the reader takes one step for each of the other characters. The number counts the
quotes right in front. -/
inductive Spells (q : Char) (R : ℕ → List Char → Found) : ℕ → List Char → List Char → Prop
  | nil (k : ℕ) : Spells q R k [] []
  | quote {k : ℕ} {t s : List Char} (hk : k < 2) (h : Spells q R (k + 1) t s) :
      Spells q R k (q :: t) (q :: s)
  | other {k : ℕ} {a c : Char} {p t s : List Char} (ha : a ≠ q)
      (hstep : ∀ n y, R (n + 1) (a :: p ++ y) = (R n y).cons c) (h : Spells q R 0 t s) :
      Spells q R k (a :: p ++ t) (c :: s)

/-- Quotes of the text at its end are told from the closing ones by what follows. -/
theorem Spells.read {R : ℕ → List Char → Found} (hR : IsLong q R) {rest : List Char}
    (hrest : Ends q rest) {k : ℕ} {t s : List Char} (h : Spells q R k t s) :
    ∀ {n : ℕ}, s.length < n → R n (t ++ q :: q :: q :: rest) = some (s, rest) := by
  induction h with
  | nil k =>
      intro n hn
      obtain ⟨n, rfl⟩ := Nat.exists_eq_succ_of_ne_zero (Nat.ne_zero_of_lt hn)
      rw [List.nil_append, hR.close, closing_zero hrest]
  | other ha hstep h ih =>
      intro n hn
      obtain ⟨n, rfl⟩ := Nat.exists_eq_succ_of_ne_zero (Nat.ne_zero_of_lt hn)
      rw [List.append_assoc, hstep, ih (Nat.lt_of_succ_lt_succ hn)]
      rfl
  | @quote k t s hk h ih =>
      intro n hn
      obtain ⟨n, rfl⟩ := Nat.exists_eq_succ_of_ne_zero (Nat.ne_zero_of_lt hn)
      have hstep : behindThree? q (q :: (t ++ q :: q :: q :: rest)) = none →
          R (n + 1) (q :: t ++ q :: q :: q :: rest) = some (q :: s, rest) := by
        intro hthree
        rw [List.cons_append, hR.quote n _ hthree, ih (Nat.lt_of_succ_lt_succ hn)]
        rfl
      cases h with
      | nil =>
          change R (n + 1) (q :: q :: q :: q :: rest) = _
          rw [hR.close, closing_one hrest]
      | other ha _ _ => exact hstep (behindThree?_of_second_ne ha q _)
      | quote hk' h' =>
          cases h' with
          | nil =>
              change R (n + 1) (q :: q :: q :: q :: q :: rest) = _
              rw [hR.close, closing_two]
          | other ha _ _ => exact hstep (behindThree?_of_third_ne ha q q _)
          | quote hk'' _ => omega

theorem Spells.length_le {R : ℕ → List Char → Found} {k : ℕ} {t s : List Char}
    (h : Spells q R k t s) : s.length ≤ t.length := by
  induction h with
  | nil => exact Nat.le_refl 0
  | quote _ _ ih => exact Nat.succ_le_succ ih
  | other _ _ _ ih =>
      simp only [List.length_cons, List.length_append]
      omega

end Long

theorem isLong_longLiteral : IsLong single longLiteral where
  close n s := by rw [longLiteral, behindThree?_self]
  quote n s h := by
    rw [longLiteral, h]
    rfl

theorem isLong_longBasic : IsLong '"' longBasic where
  close n s := by rw [longBasic, behindThree?_self]
  quote n s h := by
    rw [longBasic, h]
    rfl

theorem not_break_of_isPlain {c : Char} (h : isPlain c = true) : c ≠ '\n' ∧ c ≠ '\r' := by
  constructor <;> rintro rfl <;> exact absurd h (by decide)

theorem behindBreak?_of_ne {c : Char} (hn : c ≠ '\n') (hr : c ≠ '\r') (s : List Char) :
    behindBreak? (c :: s) = none := by
  unfold behindBreak?
  split
  · rename_i heq
    exact absurd (List.cons.inj heq).1 hn
  · rename_i heq
    exact absurd (List.cons.inj heq).1 hr
  · rfl

theorem longLiteral_char {c : Char} (hc : c ≠ single) (h : isPlain c = true ∨ c = '\n') (n : ℕ)
    (y : List Char) : longLiteral (n + 1) (c :: y) = (longLiteral n y).cons c := by
  rw [longLiteral, behindThree?_of_ne hc]
  rcases h with h | rfl
  · obtain ⟨hn, hr⟩ := not_break_of_isPlain h
    simp only [behindBreak?_of_ne hn hr, if_pos h]
  · rfl

theorem longBasic_escape {e c : Char} {x y : List Char} (hblank : isBlank e = false)
    (hn : e ≠ '\n') (hr : e ≠ '\r') (h : escape? (e :: x) = some (c, y)) (n : ℕ) :
    longBasic (n + 1) ('\\' :: e :: x) = (longBasic n y).cons c := by
  have hfold : behindFold? (e :: x) = none := by
    rw [behindFold?, List.dropWhile_cons_of_neg (by simp [hblank]), behindBreak?_of_ne hn hr]
    rfl
  rw [longBasic, behindThree?_of_ne (by decide)]
  simp only [behindBreak?_of_ne (by decide : '\\' ≠ '\n') (by decide), if_pos, hfold, h]
  rfl

theorem longBasic_spelled {c : Char} (hc : c ≠ '"') (n : ℕ) (y : List Char) :
    longBasic (n + 1) (spelled true c ++ y) = (longBasic n y).cons c := by
  rcases spelled_cases true c with ⟨e, t, h, hblank, hn, hr, hescape⟩ | ⟨h, rfl, -⟩ |
    ⟨h, hplain, hne⟩
  · rw [h]
    exact longBasic_escape hblank hn hr (hescape y) n
  · rw [h, List.singleton_append, longBasic, behindThree?_of_ne (by decide)]
    rfl
  · obtain ⟨hn, hr⟩ := not_break_of_isPlain hplain
    rw [h, List.singleton_append, longBasic, behindThree?_of_ne hc]
    simp only [behindBreak?_of_ne hn hr, if_neg hne, if_pos hplain]

theorem exists_spelled (long : Bool) {c : Char} (hc : c ≠ '"') :
    ∃ a p, spelled long c = a :: p ∧ a ≠ '"' := by
  rcases spelled_cases long c with ⟨e, t, h, -⟩ | ⟨h, -⟩ | ⟨h, -⟩
  · exact ⟨'\\', e :: t, h, by decide⟩
  · exact ⟨'\n', [], h, by decide⟩
  · exact ⟨c, [], h, hc⟩

theorem le_longestRow (quote : Char) (k : ℕ) (s : List Char) : k ≤ longestRow quote k s := by
  induction s generalizing k with
  | nil => exact Nat.le_refl k
  | cons c s ih =>
      rw [longestRow]
      split_ifs with hc
      · exact Nat.le_of_succ_le (ih (k + 1))
      · exact Nat.le_max_left k _

theorem spells_literal {s : List Char} (hall : ∀ c ∈ s, isPlain c = true ∨ c = '\n') {k : ℕ}
    (hrow : longestRow single k s ≤ 2) : Spells single longLiteral k s s := by
  induction s generalizing k with
  | nil => exact .nil k
  | cons c s ih =>
      obtain ⟨hc, hs⟩ := List.forall_mem_cons.1 hall
      rw [longestRow] at hrow
      by_cases heq : c = single
      · subst heq
        rw [if_pos rfl] at hrow
        exact .quote (Nat.le_trans (le_longestRow single (k + 1) s) hrow) (ih hs hrow)
      · rw [if_neg heq] at hrow
        have hrest : Spells single longLiteral 0 s s :=
          ih hs (Nat.le_trans (Nat.le_max_right k _) hrow)
        exact .other (p := []) heq (longLiteral_char heq hc) hrest

theorem spells_escaped (s : List Char) (k : ℕ) :
    Spells '"' longBasic k (escaped true k s) s := by
  induction s generalizing k with
  | nil => exact .nil k
  | cons c s ih =>
      by_cases hc : c = '"'
      · subst hc
        by_cases hk : k < 2
        · have hquote : escaped true k ('"' :: s) = '"' :: escaped true (k + 1) s := by
            simp [escaped, hk]
          exact hquote ▸ .quote hk (ih (k + 1))
        · have hquote : escaped true k ('"' :: s) = '\\' :: ['"'] ++ escaped true 0 s := by
            simp [escaped, hk]
          have hstep : ∀ n y, longBasic (n + 1) ('\\' :: ['"'] ++ y) = (longBasic n y).cons '"' :=
            fun n y => longBasic_escape rfl (by decide) (by decide) (escape?_letter rfl y) n
          exact hquote ▸ .other (by decide) hstep (ih 0)
      · obtain ⟨a, p, hp, ha⟩ := exists_spelled true hc
        have hstep : ∀ n y, longBasic (n + 1) (a :: p ++ y) = (longBasic n y).cons c :=
          hp ▸ longBasic_spelled hc
        rw [escaped_cons_of_ne true k hc, hp]
        exact .other ha hstep (ih 0)

/-! ### All kinds of quotes -/

theorem isPlain_of_any_isHidden {s : List Char} (h : s.any isHidden = false) :
    ∀ c ∈ s, isPlain c = true ∨ c = '\n' := by
  intro c hc
  have hhidden := List.any_eq_false.1 h c hc
  by_cases hn : c = '\n'
  · exact .inr hn
  · exact .inl (by simpa [isHidden, hn] using hhidden)

theorem not_mem_of_longestRow_eq_zero {quote : Char} {s : List Char}
    (h : longestRow quote 0 s = 0) : quote ∉ s := by
  induction s with
  | nil => exact List.not_mem_nil
  | cons c s ih =>
      rw [longestRow] at h
      split_ifs at h with hc
      · exact absurd (h ▸ le_longestRow quote (0 + 1) s) (by decide)
      · rw [Nat.zero_max] at h
        exact fun hmem => (List.mem_cons.1 hmem).elim (fun heq => hc heq.symm) (ih h)

/-- Texts between single quotes hold only what may stand there. -/
theorem styleOf_literal {s : List Char} (h : styleOf s = .literal) :
    (∀ c ∈ s, isPlain c = true) ∧ single ∉ s := by
  simp only [styleOf] at h
  split_ifs at h with h₁ h₂
  simp only [Bool.and_eq_true, Bool.not_eq_true', decide_eq_true_eq] at h₂
  obtain ⟨⟨hhidden, hbroken⟩, hrow⟩ := h₂
  refine ⟨fun c hc => ?_, not_mem_of_longestRow_eq_zero hrow⟩
  rcases isPlain_of_any_isHidden hhidden c hc with hplain | rfl
  · exact hplain
  · rw [List.contains_iff_mem.2 hc] at hbroken
    cases hbroken

theorem styleOf_longLiteral {s : List Char} (h : styleOf s = .longLiteral) :
    (∀ c ∈ s, isPlain c = true ∨ c = '\n') ∧ longestRow single 0 s ≤ 2 := by
  simp only [styleOf] at h
  split_ifs at h with h₁ h₂ h₃ h₄
  simp only [Bool.and_eq_true, Bool.not_eq_true', decide_eq_true_eq] at h₄
  exact ⟨isPlain_of_any_isHidden h₄.1, h₄.2⟩

/-- The line break that may stand behind the opening quotes. -/
def opening (s : List Char) : List Char :=
  if s.contains '\n' then ['\n'] else []

/-- Only a line break of the text itself can begin it, and then another one stands in front. -/
theorem withoutBreak_opening {s : List Char} {a : Char} (x : List Char) (hr : a ≠ '\r')
    (hn : a = '\n' → '\n' ∈ s) : withoutBreak (opening s ++ a :: x) = a :: x := by
  by_cases hmem : '\n' ∈ s
  · rw [opening, if_pos (List.contains_iff_mem.2 hmem)]
    rfl
  · rw [opening, if_neg (mt List.contains_iff_mem.1 hmem), List.nil_append, withoutBreak,
      behindBreak?_of_ne (mt hn hmem) hr]
    rfl

theorem escaped_head (s rest : List Char) :
    ∃ a x, escaped true 0 s ++ '"' :: rest = a :: x ∧ a ≠ '\r' ∧ (a = '\n' → '\n' ∈ s) := by
  cases s with
  | nil => exact ⟨'"', rest, rfl, by decide, fun h => absurd h (by decide)⟩
  | cons c s =>
      by_cases hc : c = '"'
      · subst hc
        exact ⟨'"', _, rfl, by decide, fun h => absurd h (by decide)⟩
      · rw [escaped_cons_of_ne true 0 hc]
        rcases spelled_cases true c with ⟨e, t, h, -⟩ | ⟨h, rfl, -⟩ | ⟨h, hplain, -⟩
        · exact ⟨'\\', _, by rw [h]; rfl, by decide, fun h => absurd h (by decide)⟩
        · exact ⟨'\n', _, by rw [h]; rfl, by decide, fun _ => List.mem_cons_self⟩
        · obtain ⟨hn, hr⟩ := not_break_of_isPlain hplain
          exact ⟨c, _, by rw [h]; rfl, hr, fun heq => absurd heq hn⟩

theorem literal_head {s : List Char} (hall : ∀ c ∈ s, isPlain c = true ∨ c = '\n')
    (rest : List Char) :
    ∃ a x, s ++ single :: rest = a :: x ∧ a ≠ '\r' ∧ (a = '\n' → '\n' ∈ s) := by
  cases s with
  | nil => exact ⟨single, rest, rfl, by decide, fun h => absurd h (by decide)⟩
  | cons c s =>
      refine ⟨c, _, rfl, ?_, fun heq => heq ▸ List.mem_cons_self⟩
      rcases hall c List.mem_cons_self with hplain | rfl
      · exact (not_break_of_isPlain hplain).2
      · decide

/-- What stands between long quotes is read to its end. -/
theorem Spells.read_opening {q : Char} {R : ℕ → List Char → Found} (hR : IsLong q R)
    {rest t s : List Char} (hrest : Ends q rest) (h : Spells q R 0 t s)
    (hhead : ∃ a x, t ++ q :: q :: q :: rest = a :: x ∧ a ≠ '\r' ∧ (a = '\n' → '\n' ∈ s)) :
    R ((opening s ++ (t ++ q :: q :: q :: rest)).length + 1)
        (withoutBreak (opening s ++ (t ++ q :: q :: q :: rest))) = some (s, rest) := by
  have hbreak : withoutBreak (opening s ++ (t ++ q :: q :: q :: rest)) =
      t ++ q :: q :: q :: rest := by
    obtain ⟨a, x, heq, hr, hn⟩ := hhead
    rw [heq, withoutBreak_opening x hr hn]
  have hlength := h.length_le
  rw [hbreak]
  refine h.read hR hrest ?_
  simp only [List.length_append, List.length_cons]
  omega

theorem written_head (s : List Char) :
    ∃ c t, written s = c :: t ∧ (c = '"' ∨ c = single) := by
  rw [written]
  cases styleOf s with
  | basic => exact ⟨'"', _, rfl, .inl rfl⟩
  | literal => exact ⟨single, _, rfl, .inr rfl⟩
  | longBasic => exact ⟨'"', _, rfl, .inl rfl⟩
  | longLiteral => exact ⟨single, _, rfl, .inr rfl⟩

theorem length_le_escaped (s : List Char) (k : ℕ) : s.length ≤ (escaped false k s).length := by
  induction s generalizing k with
  | nil => exact Nat.le_refl 0
  | cons c s ih =>
      by_cases hc : c = '"'
      · have hs := ih 0
        simp only [escaped, hc, if_true, Bool.false_and, Bool.false_eq_true, if_false,
          List.length_cons]
        omega
      · obtain ⟨a, p, hp, -⟩ := exists_spelled false hc
        have hs := ih 0
        rw [escaped_cons_of_ne false k hc, hp]
        simp only [List.length_append, List.length_cons]
        omega

/-- Between short quotes no text begins with two more of them. -/
theorem behindThree?_basic (s : List Char) {rest : List Char} (hrest : Ends '"' rest) :
    behindThree? '"' ('"' :: (escaped false 0 s ++ '"' :: rest)) = none := by
  cases s with
  | nil =>
      cases rest with
      | nil => rfl
      | cons a rest => exact behindThree?_of_third_ne (hrest a rest rfl) '"' '"' rest
  | cons c s =>
      by_cases hc : c = '"'
      · subst hc
        have hquote : escaped false 0 ('"' :: s) = '\\' :: '"' :: escaped false 0 s := by
          simp [escaped]
        rw [hquote]
        exact behindThree?_of_second_ne (by decide) '"' _
      · obtain ⟨a, p, hp, ha⟩ := exists_spelled false hc
        rw [escaped_cons_of_ne false 0 hc, hp]
        exact behindThree?_of_second_ne ha '"' _

theorem behindThree?_literal {s rest : List Char} (hs : single ∉ s) (hrest : Ends single rest) :
    behindThree? single (single :: (s ++ single :: rest)) = none := by
  cases s with
  | nil =>
      cases rest with
      | nil => rfl
      | cons a rest => exact behindThree?_of_third_ne (hrest a rest rfl) single single rest
  | cons c s =>
      have hc : c ≠ single := fun h => hs (List.mem_cons.2 (.inl h.symm))
      exact behindThree?_of_second_ne hc single _

/-- The text of a string is read back. -/
theorem read?_written (s : List Char) {rest : List Char} (hdouble : Ends '"' rest)
    (hsingle : Ends single rest) : read? (written s ++ rest) = some (s, rest) := by
  have hdifferent : single ≠ '"' := by decide
  cases hstyle : styleOf s with
  | basic =>
      have hwritten : written s ++ rest = '"' :: (escaped false 0 s ++ '"' :: rest) := by
        simp [written, hstyle, Style.quotes, Style.isLong, Style.escapes]
      have hlength := length_le_escaped s 0
      rw [hwritten, read?, behindThree?_basic s hdouble, behindThree?_of_ne hdifferent.symm]
      refine basic_escaped rest s 0 ?_
      simp only [List.length_append, List.length_cons]
      omega
  | literal =>
      obtain ⟨hplain, hnot⟩ := styleOf_literal hstyle
      have hwritten : written s ++ rest = single :: (s ++ single :: rest) := by
        simp [written, hstyle, Style.quotes, Style.isLong, Style.escapes]
      rw [hwritten, read?, behindThree?_of_ne hdifferent, behindThree?_literal hnot hsingle]
      exact literal_append hplain hnot rest
  | longBasic =>
      have hwritten : written s ++ rest =
          '"' :: '"' :: '"' :: (opening s ++ (escaped true 0 s ++ '"' :: '"' :: '"' :: rest)) := by
        simp [written, hstyle, Style.quotes, Style.isLong, Style.escapes, opening]
      rw [hwritten, read?, behindThree?_self]
      exact (spells_escaped s 0).read_opening isLong_longBasic hdouble (escaped_head s _)
  | longLiteral =>
      obtain ⟨hall, hrow⟩ := styleOf_longLiteral hstyle
      have hwritten : written s ++ rest =
          single :: single :: single ::
            (opening s ++ (s ++ single :: single :: single :: rest)) := by
        simp [written, hstyle, Style.quotes, Style.isLong, Style.escapes, opening]
      rw [hwritten, read?, behindThree?_of_ne hdifferent, behindThree?_self]
      exact (spells_literal hall hrow).read_opening isLong_longLiteral hsingle
        (literal_head hall _)

end DeviceTwin.Toml.Quoted
