import DeviceTwin.Proofs.Json.Numeral
import DeviceTwin.Proofs.Json.Quoted
import DeviceTwin.Proofs.Json.Value

/-!
# Written values are read back

The text of a value, read as a document, holds that value and ends where the text ends
(`valueAt_write`). The layout only has to keep to blanks between the parts of a value.
The induction is on the value; what follows it is any text that does not carry a number
on, and the bound on the depth of the reader is spent at three steps for each character.
-/

namespace DeviceTwin.Json

open DeviceTwin.Text DeviceTwin.Number

/-- A layout puts nothing but blanks between the parts of a value. -/
structure Layout.IsPlain (l : Layout) : Prop where
  lineBreak : ∀ depth, ∀ c ∈ l.lineBreak depth, isBlank c = true
  colon : ∃ blanks, l.colon = ':' :: blanks ∧ ∀ c ∈ blanks, isBlank c = true

theorem Layout.compact_isPlain : Layout.compact.IsPlain :=
  ⟨fun _ _ hc => absurd hc List.not_mem_nil, [], rfl, fun _ hc => absurd hc List.not_mem_nil⟩

theorem Layout.pretty_isPlain : Layout.pretty.IsPlain := by
  refine ⟨fun depth c hc => ?_, [' '], rfl, fun c hc => ?_⟩
  · rcases List.mem_cons.1 hc with rfl | hc
    · rfl
    · rw [List.eq_of_mem_replicate hc]
      rfl
  · rw [List.mem_singleton.1 hc]
    rfl

/-! ### Blanks -/

theorem skipBlanks_append {bs : List Char} (s : List Char) (h : ∀ c ∈ bs, isBlank c = true) :
    skipBlanks (bs ++ s) = skipBlanks s :=
  List.dropWhile_append_of_pos h

theorem skipBlanks_cons {c : Char} (s : List Char) (h : isBlank c = false) :
    skipBlanks (c :: s) = c :: s :=
  List.dropWhile_cons_of_neg (by simp [h])

/-- A text that begins as values do: with no blank and with no closing bracket. -/
def StartsValue (s : List Char) : Prop :=
  ∃ c cs, s = c :: cs ∧ isBlank c = false ∧ c ≠ ']'

theorem StartsValue.append {s : List Char} (h : StartsValue s) (rest : List Char) :
    StartsValue (s ++ rest) := by
  obtain ⟨c, cs, rfl, hblank, hbracket⟩ := h
  exact ⟨c, cs ++ rest, rfl, hblank, hbracket⟩

theorem StartsValue.skipBlanks_append {bs s : List Char} (hs : StartsValue s)
    (h : ∀ c ∈ bs, isBlank c = true) : skipBlanks (bs ++ s) = s := by
  obtain ⟨c, cs, rfl, hblank, -⟩ := hs
  rw [Json.skipBlanks_append _ h, skipBlanks_cons cs hblank]

theorem endsNumeral_cons {c : Char} (s : List Char)
    (h : isDigit c = false ∧ c ≠ '.' ∧ c ≠ 'e' ∧ c ≠ 'E') : EndsNumeral (c :: s) := by
  intro b hb
  rw [List.head?_cons, Option.mem_some_iff] at hb
  exact hb ▸ h

theorem endsNumeral_of_blank {c : Char} (s : List Char) (h : isBlank c = true) :
    EndsNumeral (c :: s) := by
  have hc : c = ' ' ∨ c = '\t' ∨ c = '\n' ∨ c = '\r' := by simpa [isBlank, or_assoc] using h
  rcases hc with rfl | rfl | rfl | rfl <;> exact endsNumeral_cons s (by decide)

/-- Blanks in front of a text that ends numbers end numbers. -/
theorem endsNumeral_append {bs s : List Char} (h : ∀ c ∈ bs, isBlank c = true)
    (hs : EndsNumeral s) : EndsNumeral (bs ++ s) := by
  cases bs with
  | nil => exact hs
  | cons c bs => exact endsNumeral_of_blank (bs ++ s) (h c List.mem_cons_self)

namespace Document

variable {n : ℕ} {rest : List Char}

/-- A number begins with a sign or a digit. -/
theorem starts_of_scan {s : List Char} {num : Numeral} (h : Numeral.scan s = .found num rest) :
    ∃ c cs, s = c :: cs ∧ (c = '-' ∨ isDigit c = true) := by
  unfold Numeral.scan at h
  split at h
  · exact ⟨_, _, rfl, .inl rfl⟩
  · cases s with
    | nil => exact absurd h (by simp [Numeral.scanSize, Numeral.digits, Numeral.short])
    | cons c cs =>
        refine ⟨c, cs, rfl, .inr ?_⟩
        by_contra hc
        have hdigits : Numeral.digits (c :: cs) = ([], c :: cs) := by
          rw [Numeral.digits, List.takeWhile_cons_of_neg hc, List.dropWhile_cons_of_neg hc]
        exact absurd h (by simp [Numeral.scanSize, hdigits, Numeral.short])

/-- What begins a number is no other beginning of a value, nor its end. -/
theorem sign_or_digit_ne {c : Char} (h : c = '-' ∨ isDigit c = true) :
    isBlank c = false ∧ c ≠ ']' ∧ c ≠ '"' ∧ c ≠ '[' ∧ c ≠ '\x7b' ∧ c ≠ 'n' ∧ c ≠ 't' ∧ c ≠ 'f' := by
  have hne : ∀ b, ¬ (b = '-' ∨ isDigit b = true) → c ≠ b := by
    rintro b hb rfl
    exact hb h
  refine ⟨?_, hne ']' (by decide), hne '"' (by decide), hne '[' (by decide),
    hne '\x7b' (by decide), hne 'n' (by decide), hne 't' (by decide), hne 'f' (by decide)⟩
  simp [isBlank, hne ' ' (by decide), hne '\t' (by decide), hne '\n' (by decide),
    hne '\r' (by decide)]

section Reading

variable [RealReader]

/-! ### Scalars -/

theorem valueAt_append {bs : List Char} (s : List Char) (h : ∀ c ∈ bs, isBlank c = true) :
    valueAt (n + 1) (bs ++ s) = valueAt (n + 1) s := by
  simp only [valueAt, skipBlanks_append s h]

theorem valueAt_quoted (s : String) :
    valueAt (n + 1) (Quoted.quote s.toList ++ rest) =
      .scalar (Quoted.quote s.toList ++ rest) rest (.text (.ok s)) := by
  have htext : Quoted.quote s.toList ++ rest =
      '"' :: (s.toList.flatMap Quoted.quoteChar ++ '"' :: rest) := by
    rw [Quoted.quote, List.cons_append, List.cons_append, List.append_assoc,
      List.singleton_append]
  rw [htext, valueAt, skipBlanks_cons _ (by decide)]
  simp only [if_pos, ofString, List.drop_one, List.tail_cons, Quoted.skip_quoted,
    Quoted.text_quoted]

theorem valueAt_number {s : List Char} {num : Numeral} (h : Numeral.scan s = .found num rest) :
    valueAt (n + 1) s = .scalar s rest (.number (num.number rest)) := by
  obtain ⟨c, cs, rfl, hc⟩ := starts_of_scan h
  obtain ⟨hblank, -, hquote, hbracket, hbrace, hn, ht, hf⟩ := sign_or_digit_ne hc
  have hnumber : (c = '-' || isDigit c) = true := by simpa using hc
  rw [valueAt, skipBlanks_cons cs hblank]
  simp only [if_neg hquote, if_neg hbracket, if_neg hbrace, if_neg hn, if_neg ht, if_neg hf,
    if_pos hnumber, ofNumber, h]

/-! ### What stands behind an item or a member -/

/-- The items behind the first one, as `itemsAt` finds them behind its end. -/
def itemsBehind (n : ℕ) (rest : List Char) : Items :=
  match skipBlanks rest with
  | ']' :: stop => .close stop
  | ',' :: rest =>
    match skipBlanks rest with
    | [] => .endAfterComma
    | ']' :: r => .trailingComma (']' :: r)
    | s => itemsAt n s
  | rest => .stray rest

theorem itemsAt_eq {s : List Char} (h : (valueAt n s).stop? = some rest) :
    itemsAt (n + 1) s = .item (valueAt n s) (itemsBehind n rest) := by
  rw [itemsAt]
  simp only [h]
  rfl

theorem itemsBehind_close {bs : List Char} (h : ∀ c ∈ bs, isBlank c = true) :
    itemsBehind n (bs ++ ']' :: rest) = .close rest := by
  rw [itemsBehind, skipBlanks_append _ h, skipBlanks_cons rest (by decide)]
  rfl

theorem itemsBehind_of_starts {s : List Char} (h : StartsValue (skipBlanks s)) :
    itemsBehind n (',' :: s) = itemsAt n (skipBlanks s) := by
  obtain ⟨c, cs, hcs, hblank, hbracket⟩ := h
  rw [itemsBehind, skipBlanks_cons _ (by decide)]
  simp only [hcs]
  split
  · rename_i heq
    exact absurd heq (List.cons_ne_nil _ _)
  · rename_i heq
    exact absurd (List.cons.inj heq).1 hbracket
  · rfl

theorem itemsBehind_comma {bs s : List Char} (h : ∀ c ∈ bs, isBlank c = true)
    (hs : StartsValue s) : itemsBehind n (',' :: (bs ++ s)) = itemsAt n s := by
  have hskip : skipBlanks (bs ++ s) = s := hs.skipBlanks_append h
  rw [itemsBehind_of_starts (by rwa [hskip]), hskip]

theorem itemsFrom_of_starts {s : List Char} (h : StartsValue (skipBlanks s)) :
    itemsFrom (n + 1) s = itemsAt n (skipBlanks s) := by
  obtain ⟨c, cs, hcs, hblank, hbracket⟩ := h
  rw [itemsFrom, hcs]
  split
  · rename_i heq
    exact absurd heq (List.cons_ne_nil _ _)
  · rename_i heq
    exact absurd (List.cons.inj heq).1 hbracket
  · rfl

theorem itemsFrom_eq {bs s : List Char} (h : ∀ c ∈ bs, isBlank c = true) (hs : StartsValue s) :
    itemsFrom (n + 1) (bs ++ s) = itemsAt n s := by
  have hskip : skipBlanks (bs ++ s) = s := hs.skipBlanks_append h
  rw [itemsFrom_of_starts (by rwa [hskip]), hskip]

/-- The members behind the first one, as `membersAt` finds them behind its end. -/
def membersBehind (n : ℕ) (rest : List Char) : Members :=
  match skipBlanks rest with
  | '\x7d' :: stop => .close stop
  | ',' :: rest =>
    match skipBlanks rest with
    | [] => .endAfterComma
    | '\x7d' :: r => .trailingComma ('\x7d' :: r)
    | s => membersAt n s
  | rest => .stray rest

theorem membersAt_eq {k : String} {bs : List Char} {s : List Char}
    (hbs : ∀ c ∈ bs, isBlank c = true)
    (h : (valueAt (n + 1) s).stop? = some rest) :
    membersAt (n + 2) (Quoted.quote k.toList ++ ':' :: (bs ++ s)) =
      .member ⟨.ok k, ':' :: (bs ++ s)⟩ (valueAt (n + 1) s) (membersBehind (n + 1) rest) := by
  have htext : Quoted.quote k.toList ++ ':' :: (bs ++ s) =
      '"' :: (k.toList.flatMap Quoted.quoteChar ++ '"' :: ':' :: (bs ++ s)) := by
    rw [Quoted.quote, List.cons_append, List.cons_append, List.append_assoc,
      List.singleton_append]
  have hcolon : isBlank ':' = false := by decide
  rw [htext, membersAt]
  simp only [keyAt, Quoted.skip_quoted, Quoted.text_quoted, skipBlanks_cons _ hcolon,
    valueAt_append s hbs, h]
  rfl

theorem membersBehind_close {bs : List Char} (h : ∀ c ∈ bs, isBlank c = true) :
    membersBehind n (bs ++ '\x7d' :: rest) = .close rest := by
  rw [membersBehind, skipBlanks_append _ h, skipBlanks_cons rest (by decide)]
  rfl

theorem membersBehind_comma {bs : List Char} (k s : List Char)
    (h : ∀ c ∈ bs, isBlank c = true) :
    membersBehind n (',' :: (bs ++ (Quoted.quote k ++ s))) =
      membersAt n (Quoted.quote k ++ s) := by
  rw [Quoted.quote, List.cons_append, List.cons_append, membersBehind,
    skipBlanks_cons _ (by decide)]
  have hquote : isBlank '"' = false := by decide
  simp only [skipBlanks_append _ h, skipBlanks_cons _ hquote]
  rfl

theorem membersFrom_eq {bs : List Char} (k s : List Char) (h : ∀ c ∈ bs, isBlank c = true) :
    membersFrom (n + 1) (bs ++ (Quoted.quote k ++ s)) = membersAt n (Quoted.quote k ++ s) := by
  rw [Quoted.quote, List.cons_append, List.cons_append, membersFrom, skipBlanks_append _ h,
    skipBlanks_cons _ (by decide)]
  rfl

end Reading

/-! ### Whole values -/

theorem startsValue_of_scan {s : List Char} {num : Numeral}
    (h : Numeral.scan (s ++ []) = .found num rest) : StartsValue s := by
  rw [List.append_nil] at h
  obtain ⟨c, cs, rfl, hc⟩ := starts_of_scan h
  obtain ⟨hblank, hbracket, -⟩ := sign_or_digit_ne hc
  exact ⟨c, cs, rfl, hblank, hbracket⟩

theorem startsValue_write (l : Layout) (depth : ℕ) (j : Json) : StartsValue (j.write l depth) := by
  cases j with
  | null => exact ⟨_, _, rfl, by decide, by decide⟩
  | boolean b => cases b <;> exact ⟨_, _, rfl, by decide, by decide⟩
  | integer n => exact startsValue_of_scan (Numeral.scan_integerText n endsNumeral_nil)
  | real x =>
      obtain ⟨num, -, -, hscan⟩ := Numeral.isText_realText x
      exact startsValue_of_scan (hscan [] endsNumeral_nil)
  | text s => exact ⟨_, _, rfl, by decide, by decide⟩
  | list items => cases items <;> exact ⟨_, _, rfl, by decide, by decide⟩
  | object entries => cases entries <;> exact ⟨_, _, rfl, by decide, by decide⟩

theorem startsValue_pos {s : List Char} (h : StartsValue s) : 0 < s.length := by
  obtain ⟨c, cs, rfl, -⟩ := h
  exact Nat.succ_pos _

variable {l : Layout}

theorem endsNumeral_writeItems (hl : l.IsPlain) (depth : ℕ) (js : List Json) (rest : List Char) :
    EndsNumeral (Json.writeItems l depth js ++ rest) := by
  cases js with
  | nil =>
      rw [Json.writeItems, List.append_assoc]
      exact endsNumeral_append (hl.lineBreak depth) (endsNumeral_cons _ (by decide))
  | cons j js => exact endsNumeral_cons _ (by decide)

theorem endsNumeral_writeMembers (hl : l.IsPlain) (depth : ℕ) (es : List (String × Json))
    (rest : List Char) : EndsNumeral (Json.writeMembers l depth es ++ rest) := by
  cases es with
  | nil =>
      rw [Json.writeMembers, List.append_assoc]
      exact endsNumeral_append (hl.lineBreak depth) (endsNumeral_cons _ (by decide))
  | cons e es => exact endsNumeral_cons _ (by decide)

/-! ### The texts of lists and objects, part by part -/

theorem write_list_append (depth : ℕ) (j : Json) (js : List Json) (rest : List Char) :
    (Json.list (j :: js)).write l depth ++ rest =
      '[' :: (l.lineBreak (depth + 1) ++
        (j.write l (depth + 1) ++ (Json.writeItems l depth js ++ rest))) := by
  simp only [Json.write, List.cons_append, List.append_assoc]

theorem writeItems_cons_append (depth : ℕ) (j : Json) (js : List Json) (rest : List Char) :
    Json.writeItems l depth (j :: js) ++ rest =
      ',' :: (l.lineBreak (depth + 1) ++
        (j.write l (depth + 1) ++ (Json.writeItems l depth js ++ rest))) := by
  simp only [Json.writeItems, List.cons_append, List.append_assoc]

theorem write_object_append {bs : List Char} (hcolon : l.colon = ':' :: bs) (depth : ℕ)
    (k : String) (j : Json) (es : List (String × Json)) (rest : List Char) :
    (Json.object ((k, j) :: es)).write l depth ++ rest =
      '\x7b' :: (l.lineBreak (depth + 1) ++ (Quoted.quote k.toList ++ ':' :: (bs ++
        (j.write l (depth + 1) ++ (Json.writeMembers l depth es ++ rest))))) := by
  simp only [Json.write, hcolon, List.cons_append, List.append_assoc]

theorem writeMembers_cons_append {bs : List Char} (hcolon : l.colon = ':' :: bs) (depth : ℕ)
    (k : String) (j : Json) (es : List (String × Json)) (rest : List Char) :
    Json.writeMembers l depth ((k, j) :: es) ++ rest =
      ',' :: (l.lineBreak (depth + 1) ++ (Quoted.quote k.toList ++ ':' :: (bs ++
        (j.write l (depth + 1) ++ (Json.writeMembers l depth es ++ rest))))) := by
  simp only [Json.writeMembers, hcolon, List.cons_append, List.append_assoc]

/-- The document holds the value and ends where `rest` begins. -/
structure HoldsTo (d : Document) (j : Json) (rest : List Char) : Prop where
  holds : d.Holds j
  stop : d.stop? = some rest

variable [RealReader]

/-- A list whose first item is read and whose other items are read behind it. -/
theorem itemsAt_holds {s more : List Char} {j : Json} {js : List Json}
    (h : (valueAt n s).HoldsTo j more) (hmore : (itemsBehind n more).Hold js)
    (hstop : (itemsBehind n more).stop? = some rest) :
    (itemsAt (n + 1) s).Hold (j :: js) ∧ (itemsAt (n + 1) s).stop? = some rest := by
  rw [itemsAt_eq h.stop]
  exact ⟨.cons h.holds hmore, hstop⟩

/-- An object whose first member is read and whose other members are read behind it. -/
theorem membersAt_holds {k : String} {bs s more : List Char} {j : Json}
    {es : List (String × Json)} (hbs : ∀ c ∈ bs, isBlank c = true)
    (h : (valueAt (n + 1) s).HoldsTo j more) (hmore : (membersBehind (n + 1) more).Hold es)
    (hstop : (membersBehind (n + 1) more).stop? = some rest) :
    (membersAt (n + 2) (Quoted.quote k.toList ++ ':' :: (bs ++ s))).Hold ((k, j) :: es) ∧
      (membersAt (n + 2) (Quoted.quote k.toList ++ ':' :: (bs ++ s))).stop? = some rest := by
  rw [membersAt_eq hbs h.stop]
  exact ⟨.cons h.holds hmore, hstop⟩

mutual

/-- The text of a value is read as that value. A bracket takes three steps of the bound:
one for the value, one for its inside and one for the first item there. -/
theorem valueAt_write (hl : l.IsPlain) :
    ∀ {j : Json}, j.Wide → ∀ (depth fuel : ℕ) (rest : List Char), EndsNumeral rest →
      3 * (j.write l depth ++ rest).length ≤ fuel →
        (valueAt fuel (j.write l depth ++ rest)).HoldsTo j rest := by
  intro j hwide depth fuel rest hrest hfuel
  have hpos := startsValue_pos ((startsValue_write l depth j).append rest)
  obtain ⟨n, rfl⟩ : ∃ n, fuel = n + 3 := ⟨fuel - 3, by omega⟩
  match j, hwide with
  | .null, _ => exact ⟨.null _ rest, rfl⟩
  | .boolean true, _ => exact ⟨.boolean _ rest true, rfl⟩
  | .boolean false, _ => exact ⟨.boolean _ rest false, rfl⟩
  | .integer i, hwide =>
      obtain ⟨num, hscan, hnum⟩ := Numeral.reads_integerText hwide hrest
      rw [Json.write, valueAt_number hscan, hnum]
      exact ⟨.integer _ rest ⟨i, hwide⟩, rfl⟩
  | .real x, hwide =>
      obtain ⟨num, hscan, hnum⟩ := Numeral.reads_realText hwide hrest
      rw [Json.write, valueAt_number hscan, hnum]
      exact ⟨.real _ rest x, rfl⟩
  | .text s, _ =>
      rw [Json.write, valueAt_quoted]
      exact ⟨.text _ rest s, rfl⟩
  | .list [], _ => exact ⟨.list _ (.nil rest), rfl⟩
  | .list (i :: is), hwide =>
      rw [write_list_append] at hfuel ⊢
      simp only [List.length_cons, List.length_append] at hfuel
      have hi := valueAt_write hl hwide.1 (depth + 1) n _
        (endsNumeral_writeItems hl depth is rest)
        (by simp only [List.length_append]; omega)
      obtain ⟨hmore, hstop⟩ := itemsBehind_write hl hwide.2 depth n rest
        (by simp only [List.length_append]; omega)
      have hitems := itemsAt_holds hi hmore hstop
      rw [← itemsFrom_eq (hl.lineBreak (depth + 1)) ((startsValue_write l _ i).append _)] at hitems
      exact ⟨.list _ hitems.1, hitems.2⟩
  | .object [], _ => exact ⟨.object _ (.nil rest), rfl⟩
  | .object ((k, i) :: es), hwide =>
      obtain ⟨bs, hcolon, hbs⟩ := hl.colon
      rw [write_object_append hcolon] at hfuel ⊢
      simp only [List.length_cons, List.length_append] at hfuel
      obtain ⟨m, rfl⟩ : ∃ m, n = m + 1 := ⟨n - 1, by omega⟩
      have hi := valueAt_write hl hwide.1 (depth + 1) (m + 1) _
        (endsNumeral_writeMembers hl depth es rest)
        (by simp only [List.length_append]; omega)
      obtain ⟨hmore, hstop⟩ := membersBehind_write hl hwide.2 depth (m + 1) rest
        (by simp only [List.length_append]; omega)
      have hmembers := membersAt_holds (k := k) hbs hi hmore hstop
      rw [← membersFrom_eq _ _ (hl.lineBreak (depth + 1))] at hmembers
      exact ⟨.object _ hmembers.1, hmembers.2⟩

theorem itemsBehind_write (hl : l.IsPlain) :
    ∀ {js : List Json}, Json.WideItems js → ∀ (depth fuel : ℕ) (rest : List Char),
      3 * (Json.writeItems l depth js ++ rest).length ≤ fuel →
        (itemsBehind fuel (Json.writeItems l depth js ++ rest)).Hold js ∧
          (itemsBehind fuel (Json.writeItems l depth js ++ rest)).stop? = some rest
  | [], _, depth, fuel, rest, _ => by
      rw [Json.writeItems, List.append_assoc, List.singleton_append,
        itemsBehind_close (hl.lineBreak depth)]
      exact ⟨.nil rest, rfl⟩
  | j :: js, hwide, depth, fuel, rest, hfuel => by
      rw [writeItems_cons_append] at hfuel ⊢
      simp only [List.length_cons, List.length_append] at hfuel
      obtain ⟨n, rfl⟩ : ∃ n, fuel = n + 1 := ⟨fuel - 1, by omega⟩
      have hj := valueAt_write hl hwide.1 (depth + 1) n _
        (endsNumeral_writeItems hl depth js rest)
        (by simp only [List.length_append]; omega)
      obtain ⟨hmore, hstop⟩ := itemsBehind_write hl hwide.2 depth n rest
        (by simp only [List.length_append]; omega)
      rw [itemsBehind_comma (hl.lineBreak (depth + 1)) ((startsValue_write l _ j).append _)]
      exact itemsAt_holds hj hmore hstop

theorem membersBehind_write (hl : l.IsPlain) :
    ∀ {es : List (String × Json)}, Json.WideEntries es → ∀ (depth fuel : ℕ) (rest : List Char),
      3 * (Json.writeMembers l depth es ++ rest).length ≤ fuel →
        (membersBehind fuel (Json.writeMembers l depth es ++ rest)).Hold es ∧
          (membersBehind fuel (Json.writeMembers l depth es ++ rest)).stop? = some rest
  | [], _, depth, fuel, rest, _ => by
      rw [Json.writeMembers, List.append_assoc, List.singleton_append,
        membersBehind_close (hl.lineBreak depth)]
      exact ⟨.nil rest, rfl⟩
  | (k, j) :: es, hwide, depth, fuel, rest, hfuel => by
      obtain ⟨bs, hcolon, hbs⟩ := hl.colon
      rw [writeMembers_cons_append hcolon] at hfuel ⊢
      simp only [List.length_cons, List.length_append] at hfuel
      obtain ⟨n, rfl⟩ : ∃ n, fuel = n + 2 := ⟨fuel - 2, by omega⟩
      have hj := valueAt_write hl hwide.1 (depth + 1) (n + 1) _
        (endsNumeral_writeMembers hl depth es rest)
        (by simp only [List.length_append]; omega)
      obtain ⟨hmore, hstop⟩ := membersBehind_write hl hwide.2 depth (n + 1) rest
        (by simp only [List.length_append]; omega)
      rw [membersBehind_comma _ _ (hl.lineBreak (depth + 1))]
      exact membersAt_holds hbs hj hmore hstop

end

/-- The text of a value holds that value and nothing behind it. -/
theorem ofText_write (hl : l.IsPlain) {j : Json} (hj : j.Wide) :
    (ofText (j.toText l).toList).HoldsTo j [] := by
  have h := valueAt_write hl hj 0 (3 * (j.write l 0).length + 3) []
    endsNumeral_nil (by rw [List.append_nil]; omega)
  rw [List.append_nil] at h
  rw [Json.toText, String.toList_ofList, ofText]
  exact h

end Document

end DeviceTwin.Json
