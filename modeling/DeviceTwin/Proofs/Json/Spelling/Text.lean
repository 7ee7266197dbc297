import DeviceTwin.Proofs.Json.Spelling.Value

/-!
# The spelling of a text

Each text that is read as a complete document is the text of a spelling
(`Document.isSpelled_valueAt`). The induction is on the bound of the reader; blanks that it
passes over are added to the spelling of what follows them or comes before.
-/

namespace DeviceTwin.Json

open DeviceTwin.Text

/-- More blanks in front of a key. -/
def KeySpelling.indent (bs : Blanks) (k : KeySpelling) : KeySpelling :=
  { k with before := bs.append k.before }

theorem KeySpelling.spell_indent (bs : Blanks) (k : KeySpelling) :
    (k.indent bs).spell = bs.val ++ k.spell :=
  List.append_assoc _ _ _

namespace Spelling

/-- More blanks in front. -/
def indent (bs : Blanks) : Spelling → Spelling
  | scalar before t behind => scalar (bs.append before) t behind
  | list before gap items behind => list (bs.append before) gap items behind
  | object before gap members behind => object (bs.append before) gap members behind

/-- More blanks behind. -/
def pad (bs : Blanks) : Spelling → Spelling
  | scalar before t behind => scalar before t (behind.append bs)
  | list before gap items behind => list before gap items (behind.append bs)
  | object before gap members behind => object before gap members (behind.append bs)

theorem spell_indent (bs : Blanks) (τ : Spelling) : (τ.indent bs).spell = bs.val ++ τ.spell := by
  cases τ <;> exact List.append_assoc _ _ _

theorem spell_pad (bs : Blanks) (τ : Spelling) : (τ.pad bs).spell = τ.spell ++ bs.val := by
  cases τ <;> simp [pad, spell, Blanks.append]

variable [RealReader]

theorem document_indent (bs : Blanks) (τ : Spelling) : (τ.indent bs).document = τ.document := by
  cases τ <;> rfl

theorem document_pad (bs : Blanks) (τ : Spelling) : (τ.pad bs).document = τ.document := by
  cases τ <;> rfl

end Spelling

namespace Document

variable {n : ℕ} {rest : List Char}

/-- A word is read to its end only letter by letter. -/
theorem word_go_eq {value : Scalar} {s : List Char} :
    ∀ {letters r : List Char}, (word.go value s letters r).stop? = some rest →
      r = letters ++ rest ∧ word.go value s letters r = .scalar s rest value
  | [], r, h => by
      obtain rfl := Option.some.inj h
      exact ⟨rfl, rfl⟩
  | l :: ls, [], h => nomatch h
  | l :: ls, c :: r, h => by
      rw [word.go] at h ⊢
      by_cases hl : l = c
      · rw [if_pos hl] at h ⊢
        obtain ⟨rfl, hword⟩ := word_go_eq h
        exact ⟨hl ▸ rfl, hword⟩
      · rw [if_neg hl] at h
        exact nomatch h

theorem exists_of_keyAt {r : List Char} {key : Key} (h : keyAt r = .ok key) :
    ∃ ps : List Quoted.Part, r = ps.flatMap Quoted.Part.spell ++ '"' :: key.stop ∧
      key.bare = ⟨known (Quoted.Part.named ps), []⟩ := by
  unfold keyAt at h
  split at h
  · rename_i stop hskip
    obtain rfl := Except.ok.inj h
    obtain ⟨ps, rfl⟩ := Quoted.skip_eq_ok_iff.1 hskip
    exact ⟨ps, rfl, by rw [Key.bare, Quoted.toOption_text]⟩
  · split at h <;> exact nomatch h

variable [RealReader]

/-! ### Scalars -/

/-- The document is that of a spelling in front of `rest`. -/
def IsSpelled (d : Document) (s rest : List Char) : Prop :=
  ∃ τ : Spelling, s = τ.spell ++ rest ∧ d.bare = τ.document

theorem IsSpelled.indent {d : Document} {s : List Char} (h : d.IsSpelled s rest) (bs : Blanks) :
    d.IsSpelled (bs.val ++ s) rest := by
  obtain ⟨τ, rfl, hd⟩ := h
  exact ⟨τ.indent bs, by rw [τ.spell_indent, List.append_assoc], by rw [τ.document_indent, hd]⟩

theorem isSpelled_token {d : Document} {s : List Char} (t : Token) (hs : s = t.spell ++ rest)
    (hd : d.bare = .scalar [] [] t.value) : d.IsSpelled s rest := by
  refine ⟨.scalar .none t .none, ?_, hd⟩
  rw [hs]
  exact congrArg (· ++ rest) (List.append_nil t.spell).symm

theorem isSpelled_word (t : Token) {c : Char} {letters r : List Char}
    (ht : t.spell = c :: letters) (hbare : t.value.bare = t.value)
    (h : (word t.value letters (c :: r)).stop? = some rest) :
    (word t.value letters (c :: r)).IsSpelled (c :: r) rest := by
  obtain ⟨hr, hword⟩ := word_go_eq h
  have hr : r = letters ++ rest := hr
  refine isSpelled_token t (by rw [ht, hr, List.cons_append]) ((congrArg bare hword).trans ?_)
  rw [bare, hbare]

theorem isSpelled_ofString {r : List Char} (h : (ofString ('"' :: r)).stop? = some rest) :
    (ofString ('"' :: r)).IsSpelled ('"' :: r) rest := by
  unfold ofString at h ⊢
  rw [List.drop_one, List.tail_cons] at h ⊢
  split at h
  · rename_i stop hskip
    obtain rfl := Option.some.inj h
    obtain ⟨ps, rfl⟩ := Quoted.skip_eq_ok_iff.1 hskip
    refine isSpelled_token (.text ps) ?_ ?_
    · rw [Token.spell, List.cons_append, List.append_assoc, List.singleton_append]
    · rw [bare, Scalar.bare, Quoted.toOption_text, Token.value]
  · split at h <;> cases h

theorem isSpelled_ofNumber {s : List Char} (h : (ofNumber s).stop? = some rest) :
    (ofNumber s).IsSpelled s rest := by
  unfold ofNumber at h ⊢
  split at h
  · rename_i num stop hscan
    obtain rfl := Option.some.inj h
    obtain ⟨spelled, rfl, rfl⟩ := Numeral.exists_of_scan hscan
    refine isSpelled_token (.number spelled) rfl ?_
    rw [bare, Scalar.bare, Numeral.number_bare, Token.value]
  · cases h

/-! ### Lists and objects -/

/-- The items are those of a list from one of them on. -/
def AreItems (items : Items) (s rest : List Char) : Prop :=
  ∃ τ τs, s = Spelling.spellItems (τ :: τs) ++ ']' :: rest ∧
    items.bare = Spelling.itemsDocument (τ :: τs)

/-- The members are those of an object from one of them on. -/
def AreMembers (members : Members) (s rest : List Char) : Prop :=
  ∃ m ms, s = Spelling.spellMembers (m :: ms) ++ '\x7d' :: rest ∧
    members.bare = Spelling.membersDocument (m :: ms)

theorem AreItems.indent {items : Items} {s : List Char} (h : AreItems items s rest)
    (bs : Blanks) : AreItems items (bs.val ++ s) rest := by
  obtain ⟨τ, τs, rfl, hitems⟩ := h
  refine ⟨τ.indent bs, τs, ?_, ?_⟩
  · simp only [Spelling.spellItems, τ.spell_indent, List.append_assoc]
  · rw [hitems, Spelling.itemsDocument, Spelling.itemsDocument, τ.document_indent]

theorem AreMembers.indent {members : Members} {s : List Char} (h : AreMembers members s rest)
    (bs : Blanks) : AreMembers members (bs.val ++ s) rest := by
  obtain ⟨⟨k, τ⟩, ms, rfl, hmembers⟩ := h
  refine ⟨(k.indent bs, τ), ms, ?_, hmembers⟩
  simp only [Spelling.spellMembers, k.spell_indent, List.append_assoc]

/-- What stands behind an item goes on with the next one or closes the list. -/
theorem exists_of_itemsBehind {r : List Char}
    (ih : ∀ s, (itemsAt n s).stop? = some rest → AreItems (itemsAt n s) s rest)
    (h : (itemsBehind n r).stop? = some rest) :
    ∃ (bs : Blanks) (τs : List Spelling),
      r = bs.val ++ (Spelling.spellMoreItems τs ++ ']' :: rest) ∧
        (itemsBehind n r).bare = Spelling.itemsDocument τs := by
  obtain ⟨bs, hr⟩ := exists_blanks r
  unfold itemsBehind at h ⊢
  split at h
  · rename_i stop hskip
    obtain rfl := Option.some.inj h
    rw [hskip] at hr
    exact ⟨bs, [], hr, rfl⟩
  · rename_i r' hskip
    rw [hskip] at hr
    obtain ⟨bs', hr'⟩ := exists_blanks r'
    split at h
    · exact nomatch h
    · exact nomatch h
    · obtain ⟨τ, τs, hs, hitems⟩ := (ih _ h).indent bs'
      rw [← hr'] at hs
      rw [hs] at hr
      exact ⟨bs, τ :: τs, hr, hitems⟩
  · exact nomatch h

theorem exists_of_membersBehind {r : List Char}
    (ih : ∀ s, (membersAt n s).stop? = some rest → AreMembers (membersAt n s) s rest)
    (h : (membersBehind n r).stop? = some rest) :
    ∃ (bs : Blanks) (ms : List Spelling.Member),
      r = bs.val ++ (Spelling.spellMoreMembers ms ++ '\x7d' :: rest) ∧
        (membersBehind n r).bare = Spelling.membersDocument ms := by
  obtain ⟨bs, hr⟩ := exists_blanks r
  unfold membersBehind at h ⊢
  split at h
  · rename_i stop hskip
    obtain rfl := Option.some.inj h
    rw [hskip] at hr
    exact ⟨bs, [], hr, rfl⟩
  · rename_i r' hskip
    rw [hskip] at hr
    obtain ⟨bs', hr'⟩ := exists_blanks r'
    split at h
    · exact nomatch h
    · exact nomatch h
    · obtain ⟨⟨k, τ⟩, ms, hs, hmembers⟩ := (ih _ h).indent bs'
      rw [← hr'] at hs
      rw [hs] at hr
      exact ⟨bs, (k, τ) :: ms, hr, hmembers⟩
  · exact nomatch h

mutual

/-- A value that is complete is spelled. -/
theorem isSpelled_valueAt :
    ∀ (n : ℕ) (s rest : List Char), (valueAt n s).stop? = some rest →
      (valueAt n s).IsSpelled s rest
  | 0, s, rest, h => nomatch h
  | n + 1, s, rest, h => by
      obtain ⟨bs, hs⟩ := exists_blanks s
      suffices hskip : (valueAt (n + 1) s).IsSpelled (skipBlanks s) rest by
        have hindent := hskip.indent bs
        rwa [← hs] at hindent
      rw [valueAt] at h ⊢
      cases hskip : skipBlanks s with
      | nil =>
          rw [hskip] at h
          exact nomatch h
      | cons c r =>
          simp only [hskip] at h ⊢
          split_ifs at h ⊢ with hquote hbracket hbrace hn ht hf hnumber
          · subst hquote
            exact isSpelled_ofString h
          · subst hbracket
            obtain ⟨gap, τs, rfl, hitems⟩ := areItems_itemsFrom n r rest h
            refine ⟨.list .none gap τs .none, ?_, congrArg _ hitems⟩
            simp only [Spelling.spell, Blanks.none, List.nil_append, List.cons_append,
              List.append_assoc]
          · subst hbrace
            obtain ⟨gap, ms, rfl, hmembers⟩ := areMembers_membersFrom n r rest h
            refine ⟨.object .none gap ms .none, ?_, congrArg _ hmembers⟩
            simp only [Spelling.spell, Blanks.none, List.nil_append, List.cons_append,
              List.append_assoc]
          · subst hn
            exact isSpelled_word .null rfl rfl h
          · subst ht
            exact isSpelled_word (.boolean true) rfl rfl h
          · subst hf
            exact isSpelled_word (.boolean false) rfl rfl h
          · exact isSpelled_ofNumber h
          · exact nomatch h

theorem areItems_itemsFrom :
    ∀ (n : ℕ) (s rest : List Char), (itemsFrom n s).stop? = some rest →
      ∃ (gap : Blanks) (τs : List Spelling),
        s = gap.val ++ (Spelling.spellItems τs ++ ']' :: rest) ∧
          (itemsFrom n s).bare = Spelling.itemsDocument τs
  | 0, s, rest, h => nomatch h
  | n + 1, s, rest, h => by
      obtain ⟨gap, hs⟩ := exists_blanks s
      rw [itemsFrom] at h ⊢
      split at h
      · exact nomatch h
      · rename_i stop hskip
        obtain rfl := Option.some.inj h
        rw [hskip] at hs
        exact ⟨gap, [], hs, rfl⟩
      · obtain ⟨τ, τs, hskip, hitems⟩ := areItems_itemsAt n _ rest h
        rw [hskip] at hs
        exact ⟨gap, τ :: τs, hs, hitems⟩

theorem areItems_itemsAt :
    ∀ (n : ℕ) (s rest : List Char), (itemsAt n s).stop? = some rest →
      AreItems (itemsAt n s) s rest
  | 0, s, rest, h => nomatch h
  | n + 1, s, rest, h => by
      cases hstop : (valueAt n s).stop? with
      | none =>
          rw [itemsAt] at h
          simp only [hstop] at h
          exact nomatch h
      | some r =>
          obtain ⟨τ, rfl, hτ⟩ := isSpelled_valueAt n s r hstop
          rw [itemsAt_eq hstop] at h ⊢
          obtain ⟨bs, τs, rfl, hitems⟩ :=
            exists_of_itemsBehind (fun s => areItems_itemsAt n s rest) h
          refine ⟨τ.pad bs, τs, ?_, ?_⟩
          · simp only [Spelling.spellItems, τ.spell_pad, List.append_assoc]
          · rw [Spelling.itemsDocument, τ.document_pad, ← hitems, ← hτ]
            rfl

theorem areMembers_membersFrom :
    ∀ (n : ℕ) (s rest : List Char), (membersFrom n s).stop? = some rest →
      ∃ (gap : Blanks) (ms : List Spelling.Member),
        s = gap.val ++ (Spelling.spellMembers ms ++ '\x7d' :: rest) ∧
          (membersFrom n s).bare = Spelling.membersDocument ms
  | 0, s, rest, h => nomatch h
  | n + 1, s, rest, h => by
      obtain ⟨gap, hs⟩ := exists_blanks s
      rw [membersFrom] at h ⊢
      split at h
      · exact nomatch h
      · rename_i stop hskip
        obtain rfl := Option.some.inj h
        rw [hskip] at hs
        exact ⟨gap, [], hs, rfl⟩
      · obtain ⟨m, ms, hskip, hmembers⟩ := areMembers_membersAt n _ rest h
        rw [hskip] at hs
        exact ⟨gap, m :: ms, hs, hmembers⟩

theorem areMembers_membersAt :
    ∀ (n : ℕ) (s rest : List Char), (membersAt n s).stop? = some rest →
      AreMembers (membersAt n s) s rest
  | 0, s, rest, h => nomatch h
  | n + 1, s, rest, h => by
      unfold membersAt at h ⊢
      split at h
      · rename_i r
        split at h
        · exact nomatch h
        · rename_i key hkey
          obtain ⟨ps, rfl, hbare⟩ := exists_of_keyAt hkey
          split at h
          · rename_i v hcolon
            cases hstop : (valueAt n v).stop? with
            | none =>
                simp only [hstop] at h
                exact nomatch h
            | some r =>
                simp only [hstop] at h ⊢
                obtain ⟨τ, rfl, hτ⟩ := isSpelled_valueAt n v r hstop
                obtain ⟨bs, ms, rfl, hmembers⟩ :=
                  exists_of_membersBehind (fun s => areMembers_membersAt n s rest) h
                obtain ⟨gap, hgap⟩ := exists_blanks key.stop
                rw [hcolon] at hgap
                refine ⟨(⟨.none, ps, gap⟩, τ.pad bs), ms, ?_, ?_⟩
                · simp only [Spelling.spellMembers, KeySpelling.spell, Blanks.none, τ.spell_pad,
                    hgap, List.nil_append, List.cons_append, List.append_assoc]
                · rw [Spelling.membersDocument, τ.document_pad, ← hmembers, ← hτ, KeySpelling.key,
                    KeySpelling.name, ← hbare]
                  rfl
          · exact nomatch h
      · exact nomatch h

end

end Document

end DeviceTwin.Json
