import DeviceTwin.Proofs.Text.Split
import DeviceTwin.Proofs.Toml.Quoted
import DeviceTwin.Toml.Document

/-!
# Lines of TOML documents are read back

A document of sections consists of lines: headers, keys with their values, and empty ones.
`Reads` says that a reader of statements takes one step for each line of a text and goes on
behind it, so texts that are read can be put behind each other.
-/

namespace DeviceTwin.Toml

open DeviceTwin.Text DeviceTwin.Toml.Quoted

/-! ### Keys -/

/-- A key that needs no quotes. -/
structure IsBareKey (key : String) : Prop where
  ne_nil : key.toList ≠ []
  all : key.toList.all isBare = true

instance : DecidablePred IsBareKey := fun key =>
  decidable_of_iff (key.toList ≠ [] ∧ key.toList.all isBare = true)
    ⟨fun h => ⟨h.1, h.2⟩, fun h => ⟨h.1, h.2⟩⟩

theorem isBare_ne {c d : Char} (hc : isBare c = true) (hd : isBare d = false) : c ≠ d := by
  rintro rfl
  rw [hc] at hd
  cases hd

theorem IsBareKey.exists_cons {key : String} (h : IsBareKey key) :
    ∃ c s, key.toList = c :: s ∧ isBare c = true := by
  obtain ⟨c, s, heq⟩ := List.exists_cons_of_ne_nil h.ne_nil
  exact ⟨c, s, heq, List.all_eq_true.1 h.all c (heq ▸ List.mem_cons_self)⟩

theorem skipBlanks_of_not_isBlank {c : Char} (h : isBlank c = false) (s : List Char) :
    skipBlanks (c :: s) = c :: s :=
  List.dropWhile_cons_of_neg (by simp [h])

theorem isBlank_of_isBare {c : Char} (h : isBare c = true) : isBlank c = false := by
  have hspace := isBare_ne h (d := ' ') (by decide)
  have htab := isBare_ne h (d := '\t') (by decide)
  simp [isBlank, hspace, htab]

theorem simpleKey?_bare {key : String} (h : IsBareKey key) {rest : List Char}
    (hrest : ∀ c, rest.head? = some c → isBare c = false) :
    simpleKey? (key.toList ++ rest) = some (key, rest) := by
  obtain ⟨htake, hdrop⟩ := takeWhile_append_stop (List.all_eq_true.1 h.all) hrest
  have hshort : readShort? (key.toList ++ rest) = none := by
    obtain ⟨c, s, heq, hc⟩ := h.exists_cons
    rw [heq, List.cons_append, readShort?, if_neg (isBare_ne hc (by decide)),
      if_neg (isBare_ne hc (by decide))]
  rw [simpleKey?, hshort]
  simp only [htake, hdrop, List.isEmpty_iff, if_neg h.ne_nil, String.ofList_toList]

theorem keyAt_bare {key : String} (h : IsBareKey key) {rest : List Char} {d : Char} {s : List Char}
    (hrest : ∀ c, rest.head? = some c → isBare c = false) (hd : skipBlanks rest = d :: s)
    (hdot : d ≠ '.') : keyAt (key.toList ++ rest) = some ([key], d :: s) := by
  have hskip : skipBlanks (key.toList ++ rest) = key.toList ++ rest := by
    obtain ⟨c, s, heq, hc⟩ := h.exists_cons
    rw [heq]
    exact skipBlanks_of_not_isBlank (isBlank_of_isBare hc) _
  change partsAt (78 + 1) (key.toList ++ rest) = _
  rw [partsAt, hskip, simpleKey?_bare h hrest]
  simp only [Option.bind_eq_bind, Option.bind_some, hd]
  split
  · rename_i heq
    exact absurd (List.cons.inj heq).1 hdot
  · rfl

/-! ### Values -/

/-- What may stand behind a value: something that ends its row. -/
def EndsValue (rest : List Char) : Prop :=
  ∃ c s, rest = c :: s ∧ (c = '\n' ∨ c = ',' ∨ c = ']')

theorem EndsValue.ends {rest : List Char} (h : EndsValue rest) :
    Ends '"' rest ∧ Ends single rest := by
  obtain ⟨c, s, rfl, hc⟩ := h
  constructor <;>
    · intro a t heq
      obtain ⟨rfl, -⟩ := List.cons.inj heq
      rcases hc with rfl | rfl | rfl <;> decide

theorem valueAt_text (n room : ℕ) (s : List Char) {rest : List Char} (hrest : EndsValue rest) :
    valueAt (n + 1) room (Quoted.written s ++ rest) = some (.text (String.ofList s), rest) := by
  have hread := read?_written s hrest.ends.1 hrest.ends.2
  obtain ⟨c, t, hwritten, hc⟩ := written_head s
  rw [hwritten, List.cons_append] at hread ⊢
  rw [valueAt.eq_def]
  simp only [if_pos hc, hread]
  rfl

theorem valueAt_flag (n room : ℕ) (b : Bool) (s : List Char) :
    valueAt (n + 1) room ((shownFlag b).toList ++ '\n' :: s) = some (.flag b, '\n' :: s) := by
  cases b <;> rfl

theorem skipLines?_of_not_isBlank {c : Char} (hblank : isBlank c = false) (hn : c ≠ '\n')
    (hr : c ≠ '\r') (hcomment : c ≠ '#') (s : List Char) :
    skipLines? false (c :: s) = some (c :: s) := by
  rw [skipLines?, if_neg (by simp [hblank]), if_neg hcomment]
  · exact fun h => hn h
  · exact fun _ h _ => hr h

theorem skipLines?_newline (s : List Char) : skipLines? false ('\n' :: s) = skipLines? false s :=
  rfl

theorem skipLines?_space (s : List Char) : skipLines? false (' ' :: s) = skipLines? false s :=
  rfl

/-- The text of an item of a list that goes over several lines. -/
def itemLine (s : String) : List Char :=
  ' ' :: ' ' :: ' ' :: ' ' :: (Quoted.written s.toList ++ [',', '\n'])

/-- The opening quote of a string ends the blanks before it. -/
theorem skipLines?_written (s rest : List Char) :
    skipLines? false (Quoted.written s ++ rest) = some (Quoted.written s ++ rest) := by
  obtain ⟨c, t, hwritten, hc⟩ := written_head s
  rw [hwritten, List.cons_append]
  rcases hc with rfl | rfl <;>
    exact skipLines?_of_not_isBlank (by decide) (by decide) (by decide) (by decide) _

/-- The items from `v` on, as `itemsAt` finds them behind the end of `v`. -/
def itemsBehind (n room : ℕ) (v : Value) (rest : List Char) : Option (List Value × List Char) := do
  match ← skipLines? false rest with
  | ']' :: r => return ([v], r)
  | ',' :: r =>
    let (vs, r) ← itemsAt n room r
    return (v :: vs, r)
  | _ => none

section Items

variable {x r : List Char} {s : List Char} (n room : ℕ)

/-- An item is read, and the list goes on behind it. -/
theorem itemsAt_written (hrest : EndsValue r)
    (h : skipLines? false x = some (Quoted.written s ++ r)) :
    itemsAt (n + 2) room x = itemsBehind (n + 1) room (.text (String.ofList s)) r := by
  have hvalue := valueAt_text n room s hrest
  obtain ⟨c, t, hwritten, hc⟩ := written_head s
  have hne : c ≠ ']' := by rcases hc with rfl | rfl <;> decide
  rw [hwritten, List.cons_append] at h hvalue
  rw [itemsAt, h, Option.bind_eq_bind, Option.bind_some]
  split
  · rename_i heq
    exact absurd (List.cons.inj heq).1 hne
  · rw [hvalue]
    rfl

/-- An item that a comma follows. -/
theorem itemsAt_comma (h : skipLines? false x = some (Quoted.written s ++ ',' :: r)) :
    itemsAt (n + 2) room x =
      (itemsAt (n + 1) room r).map fun p => (.text (String.ofList s) :: p.1, p.2) := by
  rw [itemsAt_written n room ⟨',', r, rfl, .inr (.inl rfl)⟩ h]
  change Option.bind (itemsAt (n + 1) room r) _ = _
  cases itemsAt (n + 1) room r <;> rfl

/-- The last item of a list on one line. -/
theorem itemsAt_last (h : skipLines? false x = some (Quoted.written s ++ ']' :: r)) :
    itemsAt (n + 2) room x = some ([.text (String.ofList s)], r) := by
  rw [itemsAt_written n room ⟨']', r, rfl, .inr (.inr rfl)⟩ h]
  rfl

end Items

theorem itemsAt_lines (room : ℕ) (rest : List Char) (ss : List String) :
    ∀ {n : ℕ}, ss.length < n →
      itemsAt (n + 1) room ('\n' :: (ss.flatMap itemLine ++ ']' :: rest)) =
        some (ss.map .text, rest) := by
  induction ss with
  | nil =>
      intro n hn
      rfl
  | cons s ss ih =>
      intro n hn
      obtain ⟨n, rfl⟩ := Nat.exists_eq_succ_of_ne_zero (Nat.ne_zero_of_lt hn)
      have hskip : skipLines? false ('\n' :: ((s :: ss).flatMap itemLine ++ ']' :: rest)) =
          some (Quoted.written s.toList ++
            (',' :: '\n' :: (ss.flatMap itemLine ++ ']' :: rest))) := by
        rw [← skipLines?_written]
        simp [itemLine, skipLines?_newline, skipLines?_space]
      rw [itemsAt_comma n room hskip, ih (Nat.lt_of_succ_lt_succ hn), String.ofList_toList]
      rfl

theorem valueAt_list {n room : ℕ} {x r : List Char} {vs : List Value}
    (h : itemsAt n room x = some (vs, r)) :
    valueAt (n + 1) (room + 1) ('[' :: x) = some (.list vs, r) := by
  rw [valueAt.eq_def]
  simp only [h]
  rfl

namespace Plain

/-- The number of items of a list. -/
def count : Plain → ℕ
  | texts ss => ss.length
  | _ => 0

theorem toList_quoted (s : String) : (quoted s).toList = Quoted.written s.toList := by
  rw [quoted, String.toList_ofList]

theorem toList_written_lines (s t : String) (ss : List String) :
    (texts (s :: t :: ss)).written.toList =
      '[' :: '\n' :: ((s :: t :: ss).flatMap itemLine ++ [']']) := by
  have hline : ∀ s : String, ("    " ++ quoted s ++ ",\n").toList = itemLine s := by
    intro s
    rw [String.toList_append, String.toList_append, toList_quoted, List.append_assoc]
    rfl
  have hlines : (String.join ((s :: t :: ss).map fun s => "    " ++ quoted s ++ ",\n")).toList =
      (s :: t :: ss).flatMap itemLine := by
    rw [String.toList_join, List.flatMap_map]
    exact List.flatMap_congr fun s _ => hline s
  change ("[\n" ++ String.join ((s :: t :: ss).map fun s => "    " ++ quoted s ++ ",\n") ++
    "]").toList = _
  rw [String.toList_append, String.toList_append, hlines]
  rfl

theorem valueAt_written (p : Plain) {n : ℕ} (hn : p.count + 2 < n) (room : ℕ) (s : List Char) :
    valueAt n (room + 1) (p.written.toList ++ '\n' :: s) = some (p.value, '\n' :: s) := by
  obtain ⟨n, rfl⟩ : ∃ m, n = m + 3 := ⟨n - 3, by omega⟩
  cases p with
  | flag b => exact valueAt_flag _ _ b s
  | text t =>
      rw [written, toList_quoted, valueAt_text _ _ _ ⟨'\n', s, rfl, .inl rfl⟩,
        String.ofList_toList]
      rfl
  | texts ss =>
      cases ss with
      | nil => exact valueAt_list rfl
      | cons t ss =>
          cases ss with
          | nil =>
              have htext : (texts [t]).written.toList ++ '\n' :: s =
                  '[' :: (Quoted.written t.toList ++ ']' :: '\n' :: s) := by
                simp [written, toList_quoted]
              have hread := valueAt_list (itemsAt_last n room
                (skipLines?_written t.toList (']' :: '\n' :: s)))
              rw [htext, hread, String.ofList_toList]
              rfl
          | cons u ss =>
              have htext : (texts (t :: u :: ss)).written.toList ++ '\n' :: s =
                  '[' :: '\n' :: ((t :: u :: ss).flatMap itemLine ++ ']' :: '\n' :: s) := by
                simp [toList_written_lines]
              have hcount : (t :: u :: ss).length < n + 1 := by
                have hsize : (texts (t :: u :: ss)).count = (t :: u :: ss).length := rfl
                omega
              rw [htext, valueAt_list (itemsAt_lines room ('\n' :: s) _ hcount)]
              rfl

theorem length_le_flatMap_itemLine (ss : List String) :
    ss.length ≤ (ss.flatMap itemLine).length := by
  induction ss with
  | nil => exact Nat.le_refl 0
  | cons s ss ih =>
      rw [List.flatMap_cons, List.length_append, itemLine]
      simp only [List.length_cons]
      omega

theorem count_le_length_written (p : Plain) : p.count ≤ p.written.toList.length := by
  cases p with
  | flag b => exact Nat.zero_le _
  | text t => exact Nat.zero_le _
  | texts ss =>
      cases ss with
      | nil => exact Nat.zero_le _
      | cons t ss =>
          cases ss with
          | nil =>
              change 1 ≤ ("[" ++ quoted t ++ "]").toList.length
              simp
          | cons u ss =>
              have hlength := length_le_flatMap_itemLine (t :: u :: ss)
              rw [toList_written_lines]
              change (t :: u :: ss).length ≤ _
              simp only [List.length_cons, List.length_append] at hlength ⊢
              omega

/-- A value begins with no blank. -/
theorem written_head (p : Plain) :
    ∃ c t, p.written.toList = c :: t ∧ isBlank c = false := by
  cases p with
  | flag b => cases b <;> exact ⟨_, _, rfl, rfl⟩
  | text s =>
      obtain ⟨c, t, hwritten, hc⟩ := Quoted.written_head s.toList
      rw [written, toList_quoted]
      refine ⟨c, t, hwritten, ?_⟩
      rcases hc with rfl | rfl <;> rfl
  | texts ss =>
      cases ss with
      | nil => exact ⟨'[', _, rfl, rfl⟩
      | cons t ss =>
          cases ss with
          | nil => exact ⟨'[', _, by simp [written]; rfl, rfl⟩
          | cons u ss => exact ⟨'[', _, toList_written_lines t u ss, rfl⟩

theorem skipBlanks_written (p : Plain) (s : List Char) :
    skipBlanks (' ' :: (p.written.toList ++ s)) = p.written.toList ++ s := by
  obtain ⟨c, t, hwritten, hc⟩ := p.written_head
  rw [hwritten]
  exact skipBlanks_of_not_isBlank hc _

theorem pairAt_written {key : String} (p : Plain) (h : IsBareKey key) (rest : List Char) :
    pairAt (key.toList ++ ' ' :: '=' :: ' ' :: (p.written.toList ++ '\n' :: rest)) =
      some (.pair [key] p.value, rest) := by
  have hkey : keyAt (key.toList ++ ' ' :: '=' :: ' ' :: (p.written.toList ++ '\n' :: rest)) =
      some ([key], '=' :: ' ' :: (p.written.toList ++ '\n' :: rest)) :=
    keyAt_bare h (fun d hd => by cases hd; rfl) rfl (by decide)
  have hvalue : ∀ k, p.written.toList.length + 2 < k →
      valueAt k depthLimit (p.written.toList ++ '\n' :: rest) = some (p.value, '\n' :: rest) := by
    intro k hk
    have hcount := p.count_le_length_written
    exact p.valueAt_written (by omega) 78 rest
  rw [pairAt, hkey, Option.bind_eq_bind, Option.bind_some]
  change Option.bind (valueAt _ depthLimit _) _ = _
  rw [p.skipBlanks_written,
    hvalue _ (by simp only [List.length_append, List.length_cons]; omega)]
  rfl

end Plain

/-! ### Lines -/

theorem headerAt_bare {name : String} (h : IsBareKey name) (rest : List Char) :
    headerAt (name.toList ++ ']' :: '\n' :: rest) = some (.header [name], rest) := by
  have hkey : keyAt (name.toList ++ ']' :: '\n' :: rest) = some ([name], ']' :: '\n' :: rest) :=
    keyAt_bare h (fun d hd => by cases hd; rfl) rfl (by decide)
  obtain ⟨c, s, heq, hc⟩ := h.exists_cons
  rw [heq, List.cons_append] at hkey ⊢
  unfold headerAt
  split
  · rename_i hbracket
    exact absurd (List.cons.inj hbracket).1 (isBare_ne hc (by decide))
  · rw [hkey]
    rfl

section Statements

variable {n : ℕ} {c : Char} {s r : List Char} {x : Statement}

theorem statementsAt_header (h : headerAt s = some (x, r)) :
    statementsAt (n + 1) ('[' :: s) = (statementsAt n r).map (x :: ·) := by
  change Option.bind (headerAt s) _ = _
  rw [h]
  change Option.bind (statementsAt n r) _ = _
  cases statementsAt n r <;> rfl

/-- A line that begins as keys do holds a pair. -/
theorem statementsAt_pair (hc : isBare c = true) (h : pairAt (c :: s) = some (x, r)) :
    statementsAt (n + 1) (c :: s) = (statementsAt n r).map (x :: ·) := by
  have hcomment : ¬ (c = '#' ∨ c = '\n' ∨ c = '\r') := by
    rintro (rfl | rfl | rfl) <;> exact absurd hc (by decide)
  rw [statementsAt, skipBlanks_of_not_isBlank (isBlank_of_isBare hc)]
  split
  · rename_i hnil
    exact absurd hnil (List.cons_ne_nil _ _)
  · rename_i hbracket
    exact absurd (List.cons.inj hbracket).1 (isBare_ne hc (by decide))
  · rename_i hcons
    obtain ⟨rfl, rfl⟩ := List.cons.inj hcons
    rw [if_neg hcomment, h]
    change Option.bind (statementsAt n r) _ = _
    cases statementsAt n r <;> rfl

end Statements

/-- A reader of statements takes one step for each of the lines of a text and finds the
statements there. -/
structure Reads (t : List Char) (xs : List Statement) : Prop where
  exists_steps : ∃ k ≤ t.length, ∀ n rest,
    statementsAt (n + k) (t ++ rest) = (statementsAt n rest).map (xs ++ ·)

namespace Reads

theorem nil : Reads [] [] :=
  ⟨0, Nat.le_refl 0, fun n rest => by simp⟩

theorem append {t t' : List Char} {xs xs' : List Statement} (h : Reads t xs)
    (h' : Reads t' xs') : Reads (t ++ t') (xs ++ xs') := by
  obtain ⟨k, hk, hread⟩ := h
  obtain ⟨k', hk', hread'⟩ := h'
  refine ⟨k' + k, by rw [List.length_append]; omega, fun n rest => ?_⟩
  rw [List.append_assoc, ← Nat.add_assoc, hread, hread', Option.map_map]
  congr 1
  funext ys
  simp

/-- An empty line. -/
theorem empty : Reads ['\n'] [] := by
  refine ⟨1, Nat.le_refl 1, fun n rest => ?_⟩
  change statementsAt n rest = _
  simp

theorem header {name : String} (h : IsBareKey name) :
    Reads ('[' :: (name.toList ++ [']', '\n'])) [.header [name]] := by
  refine ⟨1, by simp, fun n rest => ?_⟩
  have htext : '[' :: (name.toList ++ [']', '\n']) ++ rest =
      '[' :: (name.toList ++ ']' :: '\n' :: rest) := by
    simp
  rw [htext, statementsAt_header (headerAt_bare h rest)]
  rfl

theorem pair {key : String} (h : IsBareKey key) (p : Plain) :
    Reads (key.toList ++ ' ' :: '=' :: ' ' :: (p.written.toList ++ ['\n']))
      [.pair [key] p.value] := by
  refine ⟨1, by simp only [List.length_append, List.length_cons]; omega, fun n rest => ?_⟩
  have htext : key.toList ++ ' ' :: '=' :: ' ' :: (p.written.toList ++ ['\n']) ++ rest =
      key.toList ++ ' ' :: '=' :: ' ' :: (p.written.toList ++ '\n' :: rest) := by
    simp
  have hpair := p.pairAt_written h rest
  obtain ⟨c, s, heq, hc⟩ := h.exists_cons
  rw [htext]
  rw [heq, List.cons_append] at hpair ⊢
  rw [statementsAt_pair hc hpair]
  rfl

theorem statements_eq {t : List Char} {xs : List Statement} (h : Reads t xs) :
    statements t = some xs := by
  obtain ⟨k, hk, hread⟩ := h
  obtain ⟨n, hn⟩ : ∃ n, t.length + 1 = n + 1 + k := ⟨t.length - k, by omega⟩
  have hall := hread (n + 1) []
  rw [List.append_nil] at hall
  rw [statements, hn, hall]
  simp [statementsAt, skipBlanks]

end Reads

end DeviceTwin.Toml
