import DeviceTwin.Proofs.Json.Bare
import DeviceTwin.Proofs.Json.Spelling.Numeral
import DeviceTwin.Proofs.Json.Spelling.Quoted
import DeviceTwin.Proofs.Json.Writing

/-!
# The spellings of a value

A `Spelling` is a value as it stands in a text: scalars letter by letter, lists and objects
with their items and members in order, and blanks wherever they may stand. Every spelling is
well formed by its type, and its text is read as the document that it spells
(`Document.valueAt_spell`). The numbers of a spelling may be too large and its texts may name no
characters; that is for the readers to mind.
-/

namespace DeviceTwin.Json

open DeviceTwin.Text DeviceTwin.Number

/-- Blanks, as they may stand between the parts of a value. -/
structure Blanks where
  val : List Char
  blank : ∀ c ∈ val, isBlank c = true

namespace Blanks

def none : Blanks := ⟨[], fun _ h => absurd h List.not_mem_nil⟩

def append (a b : Blanks) : Blanks :=
  ⟨a.val ++ b.val, fun _ h => (List.mem_append.1 h).elim (a.blank _) (b.blank _)⟩

end Blanks

/-- A scalar as it is spelled. -/
inductive Token where
  | null
  | boolean (b : Bool)
  | number (s : Numeral.Spelled)
  | text (ps : List Quoted.Part)

namespace Token

def spell : Token → List Char
  | null => ['n', 'u', 'l', 'l']
  | boolean true => ['t', 'r', 'u', 'e']
  | boolean false => ['f', 'a', 'l', 's', 'e']
  | number s => s.spell
  | text ps => '"' :: (ps.flatMap Quoted.Part.spell ++ ['"'])

def value [RealReader] : Token → Scalar
  | null => .null
  | boolean b => .boolean b
  | number s => .number (s.numeral.number []).bare
  | text ps => .text (known (Quoted.Part.named ps))

end Token

/-- A key as it is spelled, up to the colon behind it. -/
structure KeySpelling where
  before : Blanks
  parts : List Quoted.Part
  behind : Blanks

namespace KeySpelling

def spell (k : KeySpelling) : List Char :=
  k.before.val ++ '"' :: (k.parts.flatMap Quoted.Part.spell ++ '"' :: k.behind.val)

def name (k : KeySpelling) : Option String :=
  Quoted.Part.named k.parts

def key (k : KeySpelling) : Key :=
  ⟨known k.name, []⟩

/-- A key whose characters stand for themselves. -/
def plain (s : String) (h : Quoted.IsPlain s) : KeySpelling :=
  ⟨.none, Quoted.Part.plains s h, .none⟩

end KeySpelling

/-- A value as it stands in a text. The gap is what stands behind an opening bracket. -/
inductive Spelling where
  | scalar (before : Blanks) (token : Token) (behind : Blanks)
  | list (before gap : Blanks) (items : List Spelling) (behind : Blanks)
  | object (before gap : Blanks) (members : List (KeySpelling × Spelling)) (behind : Blanks)

namespace Spelling

abbrev Member := KeySpelling × Spelling

/-- A text whose characters stand for themselves. -/
def plain (s : String) (h : Quoted.IsPlain s) : Spelling :=
  scalar .none (.text (Quoted.Part.plains s h)) .none

def behind : Spelling → Blanks
  | scalar _ _ behind => behind
  | list _ _ _ behind => behind
  | object _ _ _ behind => behind

mutual

def spell : Spelling → List Char
  | scalar before t behind => before.val ++ (t.spell ++ behind.val)
  | list before gap items behind =>
    before.val ++ '[' :: (gap.val ++ (spellItems items ++ ']' :: behind.val))
  | object before gap members behind =>
    before.val ++ '\x7b' :: (gap.val ++ (spellMembers members ++ '\x7d' :: behind.val))

def spellItems : List Spelling → List Char
  | [] => []
  | τ :: τs => spell τ ++ spellMoreItems τs

/-- The items behind the first one, each behind its comma. -/
def spellMoreItems : List Spelling → List Char
  | [] => []
  | τ :: τs => ',' :: (spell τ ++ spellMoreItems τs)

def spellMembers : List Member → List Char
  | [] => []
  | (k, τ) :: ms => k.spell ++ ':' :: (spell τ ++ spellMoreMembers ms)

/-- The members behind the first one, each behind its comma. -/
def spellMoreMembers : List Member → List Char
  | [] => []
  | (k, τ) :: ms => ',' :: (k.spell ++ ':' :: (spell τ ++ spellMoreMembers ms))

end

mutual

/-- The document that is spelled. -/
def document [RealReader] : Spelling → Document
  | scalar _ t _ => .scalar [] [] t.value
  | list _ _ items _ => .list [] (itemsDocument items)
  | object _ _ members _ => .object [] (membersDocument members)

def itemsDocument [RealReader] : List Spelling → Items
  | [] => .close []
  | τ :: τs => .item (document τ) (itemsDocument τs)

def membersDocument [RealReader] : List Member → Members
  | [] => .close []
  | (k, τ) :: ms => .member k.key (document τ) (membersDocument ms)

end

end Spelling

/-! ### What is spelled is read -/

/-- The document is `e`, places apart, and ends where `rest` begins. -/
structure Document.ReadTo (d e : Document) (rest : List Char) : Prop where
  bare : d.bare = e
  stop : d.stop? = some rest

structure Items.ReadTo (items others : Items) (rest : List Char) : Prop where
  bare : items.bare = others
  stop : items.stop? = some rest

structure Members.ReadTo (members others : Members) (rest : List Char) : Prop where
  bare : members.bare = others
  stop : members.stop? = some rest

namespace Numeral

theorem number_bare [RealReader] (n : Numeral) (rest : List Char) :
    (n.number rest).bare = (n.number []).bare := by
  rw [number, number]
  cases n.integer? with
  | some i => rfl
  | none =>
      simp only [real]
      cases RealReader.double? n <;> rfl

end Numeral

namespace Document

variable {n : ℕ} {rest : List Char}

theorem startsValue_token (t : Token) : StartsValue t.spell := by
  cases t with
  | null => exact ⟨_, _, rfl, by decide, by decide⟩
  | boolean b => cases b <;> exact ⟨_, _, rfl, by decide, by decide⟩
  | number s =>
      exact startsValue_of_scan (Numeral.scan_spelled s endsNumeral_nil)
  | text ps => exact ⟨_, _, rfl, by decide, by decide⟩

theorem exists_blanks (s : List Char) : ∃ bs : Blanks, s = bs.val ++ skipBlanks s :=
  ⟨⟨s.takeWhile isBlank, fun _ => List.mem_takeWhile_imp⟩, List.takeWhile_append_dropWhile.symm⟩

/-- Behind its blanks a key begins with its quote. -/
theorem skipBlanks_key (k : KeySpelling) (s : List Char) :
    skipBlanks (k.spell ++ s) =
      '"' :: (k.parts.flatMap Quoted.Part.spell ++ '"' :: (k.behind.val ++ s)) := by
  rw [KeySpelling.spell, List.append_assoc, skipBlanks_append _ k.before.blank, List.cons_append,
    skipBlanks_cons _ (by decide), List.append_assoc, List.cons_append]

theorem endsNumeral_items (τs : List Spelling) (rest : List Char) :
    EndsNumeral (Spelling.spellMoreItems τs ++ ']' :: rest) := by
  cases τs <;> exact endsNumeral_cons _ (by decide)

theorem endsNumeral_members (ms : List Spelling.Member) (rest : List Char) :
    EndsNumeral (Spelling.spellMoreMembers ms ++ '\x7d' :: rest) := by
  cases ms <;> exact endsNumeral_cons _ (by decide)

/-- Behind its blanks a value begins as values do. -/
theorem startsValue_spell (τ : Spelling) (rest : List Char) :
    StartsValue (skipBlanks (τ.spell ++ rest)) := by
  cases τ with
  | scalar before t behind =>
      obtain ⟨c, cs, hcs, hblank, hbracket⟩ := startsValue_token t
      rw [Spelling.spell, List.append_assoc, skipBlanks_append _ before.blank, hcs,
        List.cons_append, List.cons_append, skipBlanks_cons _ hblank]
      exact ⟨c, _, rfl, hblank, hbracket⟩
  | list before gap items behind =>
      rw [Spelling.spell, List.append_assoc, skipBlanks_append _ before.blank, List.cons_append,
        skipBlanks_cons _ (by decide)]
      exact ⟨_, _, rfl, by decide, by decide⟩
  | object before gap members behind =>
      rw [Spelling.spell, List.append_assoc, skipBlanks_append _ before.blank, List.cons_append,
        skipBlanks_cons _ (by decide)]
      exact ⟨_, _, rfl, by decide, by decide⟩

theorem spell_pos (τ : Spelling) : 0 < τ.spell.length := by
  have h := startsValue_spell τ []
  rw [List.append_nil] at h
  cases hτ : τ.spell with
  | nil =>
      rw [hτ] at h
      exact startsValue_pos h
  | cons c cs => exact Nat.succ_pos _

variable [RealReader]

theorem valueAt_token (t : Token) (hrest : EndsNumeral rest) :
    (valueAt (n + 1) (t.spell ++ rest)).ReadTo (.scalar [] [] t.value) rest := by
  cases t with
  | null => exact ⟨rfl, rfl⟩
  | boolean b => cases b <;> exact ⟨rfl, rfl⟩
  | number s =>
      rw [Token.spell, valueAt_number (Numeral.scan_spelled s hrest)]
      refine ⟨?_, rfl⟩
      rw [bare, Scalar.bare, Numeral.number_bare, Token.value]
  | text ps =>
      have htext : (Token.text ps).spell ++ rest =
          '"' :: (ps.flatMap Quoted.Part.spell ++ '"' :: rest) := by
        rw [Token.spell, List.cons_append, List.append_assoc, List.singleton_append]
      have hskip : Quoted.skip (ps.flatMap Quoted.Part.spell ++ '"' :: rest) = .ok rest :=
        Quoted.skip_eq_ok_iff.2 ⟨ps, rfl⟩
      have hread : valueAt (n + 1) ((Token.text ps).spell ++ rest) =
          .scalar ((Token.text ps).spell ++ rest) rest
            (.text (Quoted.text (ps.flatMap Quoted.Part.spell ++ '"' :: rest))) := by
        rw [htext, valueAt, skipBlanks_cons _ (by decide)]
        simp only [if_pos, ofString, List.drop_one, List.tail_cons, hskip]
      rw [hread]
      refine ⟨?_, rfl⟩
      rw [bare, Scalar.bare, Quoted.toOption_text, Token.value]

theorem itemsFrom_append {bs : List Char} (s : List Char) (h : ∀ c ∈ bs, isBlank c = true) :
    itemsFrom (n + 1) (bs ++ s) = itemsFrom (n + 1) s := by
  simp only [itemsFrom, skipBlanks_append s h]

theorem itemsBehind_append {bs : List Char} (s : List Char) (h : ∀ c ∈ bs, isBlank c = true) :
    itemsBehind n (bs ++ s) = itemsBehind n s := by
  simp only [itemsBehind, skipBlanks_append s h]

theorem membersBehind_append {bs : List Char} (s : List Char) (h : ∀ c ∈ bs, isBlank c = true) :
    membersBehind n (bs ++ s) = membersBehind n s := by
  simp only [membersBehind, skipBlanks_append s h]

theorem valueAt_skipBlanks (s : List Char) :
    valueAt (n + 1) (skipBlanks s) = valueAt (n + 1) s := by
  obtain ⟨bs, hs⟩ := exists_blanks s
  conv_rhs => rw [hs]
  rw [valueAt_append _ bs.blank]

/-- An item and what stands behind it are read one after the other. -/
theorem itemsAt_spell {τ : Spelling} {τs : List Spelling} {more : List Char}
    (hτ : (valueAt (n + 1) (τ.spell ++ more)).ReadTo τ.document (τ.behind.val ++ more))
    (hτs : (itemsBehind (n + 1) more).ReadTo (Spelling.itemsDocument τs) rest) :
    (itemsAt (n + 2) (skipBlanks (τ.spell ++ more))).ReadTo
      (Spelling.itemsDocument (τ :: τs)) rest := by
  rw [← valueAt_skipBlanks] at hτ
  rw [itemsAt_eq hτ.stop, itemsBehind_append more τ.behind.blank]
  exact ⟨congrArg₂ Items.item hτ.bare hτs.bare, hτs.stop⟩

theorem membersFrom_of_key (k : KeySpelling) {bs : List Char} (s : List Char)
    (h : ∀ c ∈ bs, isBlank c = true) :
    membersFrom (n + 1) (bs ++ (k.spell ++ s)) = membersAt n (skipBlanks (k.spell ++ s)) := by
  rw [membersFrom, skipBlanks_append _ h, skipBlanks_key]
  rfl

theorem membersBehind_of_key (k : KeySpelling) (s : List Char) :
    membersBehind n (',' :: (k.spell ++ s)) = membersAt n (skipBlanks (k.spell ++ s)) := by
  rw [membersBehind, skipBlanks_cons _ (by decide)]
  simp only [skipBlanks_key]
  rfl

/-- A member and what stands behind it are read one after the other. -/
theorem membersAt_spell {k : KeySpelling} {τ : Spelling} {ms : List Spelling.Member}
    {more : List Char}
    (hτ : (valueAt (n + 1) (τ.spell ++ more)).ReadTo τ.document (τ.behind.val ++ more))
    (hms : (membersBehind (n + 1) more).ReadTo (Spelling.membersDocument ms) rest) :
    (membersAt (n + 2) (skipBlanks (k.spell ++ ':' :: (τ.spell ++ more)))).ReadTo
      (Spelling.membersDocument ((k, τ) :: ms)) rest := by
  have hskip : ∀ s, Quoted.skip (k.parts.flatMap Quoted.Part.spell ++ '"' :: s) = .ok s :=
    fun s => Quoted.skip_eq_ok_iff.2 ⟨k.parts, rfl⟩
  have hcolon : isBlank ':' = false := by decide
  rw [skipBlanks_key, membersAt]
  simp only [keyAt, hskip, skipBlanks_append _ k.behind.blank, skipBlanks_cons _ hcolon, hτ.stop]
  rw [← membersBehind_append _ τ.behind.blank] at hms
  refine ⟨?_, hms.stop⟩
  rw [Members.bare, Key.bare, Quoted.toOption_text, hτ.bare]
  exact congrArg _ hms.bare

theorem itemsFrom_close {bs : List Char} (h : ∀ c ∈ bs, isBlank c = true) :
    itemsFrom (n + 1) (bs ++ ']' :: rest) = .close rest := by
  rw [itemsFrom, skipBlanks_append _ h, skipBlanks_cons rest (by decide)]
  rfl

theorem membersFrom_close {bs : List Char} (h : ∀ c ∈ bs, isBlank c = true) :
    membersFrom (n + 1) (bs ++ '\x7d' :: rest) = .close rest := by
  rw [membersFrom, skipBlanks_append _ h, skipBlanks_cons rest (by decide)]
  rfl

/-- A list is read as its items are. -/
theorem valueAt_list {before : Blanks} {s : List Char} {items : Items}
    (h : (itemsFrom n s).ReadTo items rest) :
    (valueAt (n + 1) (before.val ++ '[' :: s)).ReadTo (.list [] items) rest := by
  rw [valueAt_append _ before.blank]
  exact ⟨congrArg _ h.bare, h.stop⟩

theorem valueAt_object {before : Blanks} {s : List Char} {members : Members}
    (h : (membersFrom n s).ReadTo members rest) :
    (valueAt (n + 1) (before.val ++ '\x7b' :: s)).ReadTo (.object [] members) rest := by
  rw [valueAt_append _ before.blank]
  exact ⟨congrArg _ h.bare, h.stop⟩

mutual

/-- The text of a spelling is read as the document that it spells. A bracket takes three steps
of the bound: one for the value, one for its inside and one for the first item there. -/
theorem valueAt_spell :
    ∀ (τ : Spelling) (fuel : ℕ) (rest : List Char), EndsNumeral rest →
      3 * (τ.spell ++ rest).length ≤ fuel →
        (valueAt fuel (τ.spell ++ rest)).ReadTo τ.document (τ.behind.val ++ rest)
  | .scalar before t behind, fuel, rest, hrest, hfuel => by
      have hpos := spell_pos (.scalar before t behind)
      rw [List.length_append] at hfuel
      obtain ⟨n, rfl⟩ : ∃ n, fuel = n + 1 := ⟨fuel - 1, by omega⟩
      rw [Spelling.spell, List.append_assoc, List.append_assoc, valueAt_append _ before.blank]
      exact valueAt_token t (endsNumeral_append behind.blank hrest)
  | .list before gap items behind, fuel, rest, _, hfuel => by
      rw [Spelling.spell, List.append_assoc, List.cons_append, List.append_assoc,
        List.append_assoc, List.cons_append] at hfuel ⊢
      simp only [List.length_append, List.length_cons] at hfuel
      obtain ⟨n, rfl⟩ : ∃ n, fuel = n + 1 := ⟨fuel - 1, by omega⟩
      refine valueAt_list (itemsFrom_spell items gap n _ ?_)
      simp only [List.length_append, List.length_cons]
      omega
  | .object before gap members behind, fuel, rest, _, hfuel => by
      rw [Spelling.spell, List.append_assoc, List.cons_append, List.append_assoc,
        List.append_assoc, List.cons_append] at hfuel ⊢
      simp only [List.length_append, List.length_cons] at hfuel
      obtain ⟨n, rfl⟩ : ∃ n, fuel = n + 1 := ⟨fuel - 1, by omega⟩
      refine valueAt_object (membersFrom_spell members gap n _ ?_)
      simp only [List.length_append, List.length_cons]
      omega

/-- The items behind an opening bracket. -/
theorem itemsFrom_spell :
    ∀ (items : List Spelling) (gap : Blanks) (fuel : ℕ) (rest : List Char),
      3 * (gap.val ++ (Spelling.spellItems items ++ ']' :: rest)).length + 2 ≤ fuel →
        (itemsFrom fuel (gap.val ++ (Spelling.spellItems items ++ ']' :: rest))).ReadTo
          (Spelling.itemsDocument items) rest
  | [], gap, fuel, rest, hfuel => by
      obtain ⟨n, rfl⟩ : ∃ n, fuel = n + 1 := ⟨fuel - 1, by omega⟩
      rw [Spelling.spellItems, List.nil_append, itemsFrom_close gap.blank]
      exact ⟨rfl, rfl⟩
  | τ :: τs, gap, fuel, rest, hfuel => by
      rw [Spelling.spellItems, List.append_assoc] at hfuel ⊢
      simp only [List.length_append, List.length_cons] at hfuel
      obtain ⟨n, rfl⟩ : ∃ n, fuel = n + 3 := ⟨fuel - 3, by omega⟩
      rw [itemsFrom_append _ gap.blank, itemsFrom_of_starts (startsValue_spell τ _)]
      refine itemsAt_spell (valueAt_spell τ _ _ (endsNumeral_items τs rest) ?_)
        (itemsBehind_spell τs _ _ ?_)
      · simp only [List.length_append, List.length_cons]
        omega
      · simp only [List.length_append, List.length_cons]
        omega

/-- The members behind an opening brace. -/
theorem membersFrom_spell :
    ∀ (members : List Spelling.Member) (gap : Blanks) (fuel : ℕ) (rest : List Char),
      3 * (gap.val ++ (Spelling.spellMembers members ++ '\x7d' :: rest)).length + 2 ≤ fuel →
        (membersFrom fuel (gap.val ++ (Spelling.spellMembers members ++ '\x7d' :: rest))).ReadTo
          (Spelling.membersDocument members) rest
  | [], gap, fuel, rest, hfuel => by
      obtain ⟨n, rfl⟩ : ∃ n, fuel = n + 1 := ⟨fuel - 1, by omega⟩
      rw [Spelling.spellMembers, List.nil_append, membersFrom_close gap.blank]
      exact ⟨rfl, rfl⟩
  | (k, τ) :: ms, gap, fuel, rest, hfuel => by
      rw [Spelling.spellMembers, List.append_assoc, List.cons_append, List.append_assoc] at hfuel ⊢
      simp only [List.length_append, List.length_cons] at hfuel
      obtain ⟨n, rfl⟩ : ∃ n, fuel = n + 3 := ⟨fuel - 3, by omega⟩
      rw [membersFrom_of_key k _ gap.blank]
      refine membersAt_spell (valueAt_spell τ _ _ (endsNumeral_members ms rest) ?_)
        (membersBehind_spell ms _ _ ?_)
      · simp only [List.length_append, List.length_cons]
        omega
      · simp only [List.length_append, List.length_cons]
        omega

/-- The items behind an item, up to the closing bracket. -/
theorem itemsBehind_spell :
    ∀ (τs : List Spelling) (fuel : ℕ) (rest : List Char),
      3 * (Spelling.spellMoreItems τs ++ ']' :: rest).length ≤ fuel →
        (itemsBehind fuel (Spelling.spellMoreItems τs ++ ']' :: rest)).ReadTo
          (Spelling.itemsDocument τs) rest
  | [], _, rest, _ => ⟨rfl, rfl⟩
  | τ :: τs, fuel, rest, hfuel => by
      rw [Spelling.spellMoreItems, List.cons_append, List.append_assoc] at hfuel ⊢
      simp only [List.length_append, List.length_cons] at hfuel
      obtain ⟨n, rfl⟩ : ∃ n, fuel = n + 2 := ⟨fuel - 2, by omega⟩
      rw [itemsBehind_of_starts (startsValue_spell τ _)]
      refine itemsAt_spell (valueAt_spell τ _ _ (endsNumeral_items τs rest) ?_)
        (itemsBehind_spell τs _ _ ?_)
      · simp only [List.length_append, List.length_cons]
        omega
      · simp only [List.length_append, List.length_cons]
        omega

/-- The members behind a member, up to the closing brace. -/
theorem membersBehind_spell :
    ∀ (ms : List Spelling.Member) (fuel : ℕ) (rest : List Char),
      3 * (Spelling.spellMoreMembers ms ++ '\x7d' :: rest).length ≤ fuel →
        (membersBehind fuel (Spelling.spellMoreMembers ms ++ '\x7d' :: rest)).ReadTo
          (Spelling.membersDocument ms) rest
  | [], _, rest, _ => ⟨rfl, rfl⟩
  | (k, τ) :: ms, fuel, rest, hfuel => by
      rw [Spelling.spellMoreMembers, List.cons_append, List.append_assoc, List.cons_append,
        List.append_assoc] at hfuel ⊢
      simp only [List.length_append, List.length_cons] at hfuel
      obtain ⟨n, rfl⟩ : ∃ n, fuel = n + 2 := ⟨fuel - 2, by omega⟩
      rw [membersBehind_of_key]
      refine membersAt_spell (valueAt_spell τ _ _ (endsNumeral_members ms rest) ?_)
        (membersBehind_spell ms _ _ ?_)
      · simp only [List.length_append, List.length_cons]
        omega
      · simp only [List.length_append, List.length_cons]
        omega

end

end Document

end DeviceTwin.Json
