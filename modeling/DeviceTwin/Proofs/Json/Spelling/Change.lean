import DeviceTwin.Proofs.Json.Spelling.Reading

/-!
# Changes of an object that a record does not mind

An object may be written in many ways that give the fields of a record the same values: its
members in any order, members that no field knows, null for an optional field or no member at
all. A `Change` says which members may stand for which ones. It is `Harmless` if what the
fields gathered they gather again, and what could be read through can be read through again;
it is `Fatal` if the fields gather nothing afterwards, as when a known key is repeated.
-/

namespace DeviceTwin.Json

open Spelling

/-! ### Fields and what they gather -/

/-- The field that a key names. -/
def fieldOf (fs : List Field) (key : String) : Option Field :=
  fs.find? fun f => f.key = key

theorem fieldOf_cons_self (f : Field) (fs : List Field) : fieldOf (f :: fs) f.key = some f :=
  List.find?_cons_of_pos (by simp)

theorem fieldOf_cons_of_ne {f : Field} {key : String} (h : f.key ≠ key) (fs : List Field) :
    fieldOf (f :: fs) key = fieldOf fs key :=
  List.find?_cons_of_neg (by simpa using h)

namespace Spelling

theorem forall_mem_insert {β : Type} {P : β → Prop} {as bs : List β} {m : β} :
    (∀ m' ∈ as ++ m :: bs, P m') ↔ P m ∧ ∀ m' ∈ as ++ bs, P m' := by
  rw [← List.forall_mem_cons]
  exact forall_congr' fun _ => imp_congr_left List.perm_middle.mem_iff

theorem names_filter_iff {key : String} {ms : List Member} :
    (∀ m ∈ ms.filter fun m => m.1.name ≠ some key, Quoted.Part.Names m.1.parts) ↔
      ∀ m ∈ ms, Quoted.Part.Names m.1.parts := by
  constructor
  · intro h m hm
    by_cases hkey : m.1.name = some key
    · exact ⟨key, hkey⟩
    · exact h m (List.mem_filter.2 ⟨hm, by simpa using hkey⟩)
  · exact fun h m hm => h m (List.mem_filter.1 hm).1

variable [RealReader]

theorem under_filter_self (key : String) (ms : List Member) :
    under key (ms.filter fun m => m.1.name ≠ some key) = [] := by
  rw [under, List.filter_filter, List.filter_eq_nil_iff.2, List.map_nil]
  intro m _
  simp

theorem under_filter_of_ne {key other : String} (h : other ≠ key) (ms : List Member) :
    under key (ms.filter fun m => m.1.name ≠ some other) = under key ms := by
  rw [under, under, List.filter_filter]
  congr 1
  refine List.filter_congr fun m _ => ?_
  by_cases hm : m.1.name = some key
  · simp [hm, h.symm]
  · simp [hm]

theorem under_append (key : String) (as bs : List Member) :
    under key (as ++ bs) = under key as ++ under key bs := by
  rw [under, List.filter_append, List.map_append, under, under]

theorem under_cons_self {key : String} {m : Member} (h : m.1.name = some key)
    (ms : List Member) : under key (m :: ms) = m.2.document :: under key ms := by
  rw [under, List.filter_cons_of_pos (by simpa using h), List.map_cons, under]

theorem under_cons_of_ne {key : String} {m : Member} (h : m.1.name ≠ some key)
    (ms : List Member) : under key (m :: ms) = under key ms := by
  rw [under, List.filter_cons_of_neg (by simpa using h), under]

theorem under_eq_nil {key : String} {ms : List Member} (h : ∀ m ∈ ms, m.1.name ≠ some key) :
    under key ms = [] := by
  rw [under, List.filter_eq_nil_iff.2, List.map_nil]
  intro m hm
  simpa using h m hm

theorem under_ne_nil {key : String} {ms : List Member} (h : ∃ m ∈ ms, m.1.name = some key) :
    under key ms ≠ [] := by
  obtain ⟨m, hm, hkey⟩ := h
  rw [under, Ne, List.map_eq_nil_iff]
  exact List.ne_nil_of_mem (List.mem_filter.2 ⟨hm, by simpa using hkey⟩)

/-- A member under a key that no field is looking for leaves no trace. -/
theorem under_append_cons_of_ne {key : String} {m : Member} (h : m.1.name ≠ some key)
    (as bs : List Member) : under key (as ++ m :: bs) = under key (as ++ bs) := by
  rw [under_append, under_cons_of_ne h, ← under_append]

theorem under_append_cons_self {key : String} {m : Member} (h : m.1.name = some key)
    (as bs : List Member) :
    under key (as ++ m :: bs) = under key as ++ m.2.document :: under key bs := by
  rw [under_append, under_cons_self h]

end Spelling

variable {c : Context} {fs : List Field} {ms ms' : List Member} {vs : Slots fs}

/-! ### What a field gets -/

namespace Field

variable {f : Field} {ds ds' : List Document} {v : f.Value}

theorem gets_append_cons_iff {as bs : List Document} {d : Document} :
    f.Gets c (as ++ d :: bs) v ↔ as = [] ∧ bs = [] ∧ f.read c d = .ok v := by
  match as, bs with
  | [], [] => simp [Gets]
  | [], _ :: _ => simp [Gets]
  | [_], _ => simp [Gets]
  | _ :: _ :: _, _ => simp [Gets]

theorem Gets.perm (h : f.Gets c ds v) (hds : ds.Perm ds') : f.Gets c ds' v := by
  match ds, h with
  | [], h => rwa [List.nil_perm.1 hds]
  | [d], h => rwa [← List.singleton_perm.1 hds]

/-- A field that holds something or nothing. -/
def IsOptional (f : Field) : Prop :=
  ∃ (key : String) (α : Type) (codec : Codec α), f = .optional key codec

/-- To an optional field null is as good as nothing. -/
theorem IsOptional.gets_null_iff (h : f.IsOptional) {start stop : List Char} :
    f.Gets c [.scalar start stop .null] v ↔ f.Gets c [] v := by
  obtain ⟨key, α, codec, rfl⟩ := h
  exact ⟨fun h => congrArg some (Except.ok.inj h), fun h => congrArg Except.ok (Option.some.inj h)⟩

end Field

theorem Reader.itemsOf_cons_iff {α : Type} {r : Reader α} {d : Document} {more : Items}
    {vs : List α} :
    r.itemsOf c (.item d more) = .ok vs ↔
      ∃ v us, r c d = .ok v ∧ r.itemsOf c more = .ok us ∧ v :: us = vs := by
  simp only [itemsOf, bind_eq_ok_iff, settled_eq_ok_iff]
  constructor
  · rintro ⟨v, hv, us, hus, h⟩
    exact ⟨v, us, hv, hus, Except.ok.inj h⟩
  · rintro ⟨v, us, hv, hus, rfl⟩
    exact ⟨v, hv, us, hus, rfl⟩

variable [RealReader]

/-- What the fields gather is gathered again where each of them gets its value again. -/
theorem gathered_imp :
    ∀ {fs : List Field} {ms ms' : List Member} {vs : Slots fs},
      (∀ key f, fieldOf fs key = some f → ∀ v, f.Gets c (under key ms) v →
        f.Gets c (under key ms') v) →
      ((∀ m ∈ ms, Quoted.Part.Names m.1.parts) → ∀ m ∈ ms', Quoted.Part.Names m.1.parts) →
      Slots.Gathered c fs (membersDocument ms) vs → Slots.Gathered c fs (membersDocument ms') vs
  | [], ms, ms', (), _, hnames, h =>
      passed_membersDocument.2 (hnames (passed_membersDocument.1 h))
  | f :: fs, ms, ms', (v, vs), hgets, hnames, h => by
      rw [Slots.Gathered, under_membersDocument, without_membersDocument] at h ⊢
      refine ⟨hgets f.key f (fieldOf_cons_self f fs) v h.1, gathered_imp ?_ ?_ h.2⟩
      · intro key g hg w hw
        by_cases hkey : f.key = key
        · subst hkey
          rw [under_filter_self] at hw ⊢
          exact hw
        · rw [under_filter_of_ne hkey] at hw ⊢
          exact hgets key g ((fieldOf_cons_of_ne hkey fs).trans hg) w hw
      · rw [names_filter_iff, names_filter_iff]
        exact hnames

/-- A field that a key names gets something from the members of this key. -/
theorem gets_of_gathered :
    ∀ {fs : List Field} {ms : List Member} {vs : Slots fs} {key : String} {f : Field},
      Slots.Gathered c fs (membersDocument ms) vs → fieldOf fs key = some f →
        ∃ v, f.Gets c (under key ms) v
  | [], _, _, _, _, _, hf => nomatch hf
  | g :: fs, ms, (v, vs), key, f, h, hf => by
      rw [Slots.Gathered, under_membersDocument, without_membersDocument] at h
      by_cases hkey : g.key = key
      · subst hkey
        obtain rfl := Option.some.inj ((fieldOf_cons_self g fs).symm.trans hf)
        exact ⟨v, h.1⟩
      · obtain ⟨w, hw⟩ := gets_of_gathered h.2 ((fieldOf_cons_of_ne hkey fs).symm.trans hf)
        rw [under_filter_of_ne hkey] at hw
        exact ⟨w, hw⟩

/-! ### One value in the place of another -/

/-- The reader gives for the second spelling what it gives for the first. -/
def Reader.Follows {α : Type} (r : Reader α) (c : Context) (τ τ' : Spelling) : Prop :=
  ∀ a, r c τ.document = .ok a → r c τ'.document = .ok a

theorem gathered_replace {as bs : List Member} {k : KeySpelling} {τ τ' : Spelling} {f : Field}
    (hkey : k.name = some f.key) (hfield : fieldOf fs f.key = some f)
    (hτ : f.read.Follows c τ τ')
    (h : Slots.Gathered c fs (membersDocument (as ++ (k, τ) :: bs)) vs) :
    Slots.Gathered c fs (membersDocument (as ++ (k, τ') :: bs)) vs := by
  refine gathered_imp (fun key g hg v hgets => ?_) (fun hnames => ?_) h
  · by_cases hf : key = f.key
    · subst hf
      obtain rfl := Option.some.inj (hfield.symm.trans hg)
      rw [under_append_cons_self hkey] at hgets ⊢
      obtain ⟨has, hbs, hread⟩ := Field.gets_append_cons_iff.1 hgets
      exact Field.gets_append_cons_iff.2 ⟨has, hbs, hτ v hread⟩
    · have hne : k.name ≠ some key := fun hk => hf (Option.some.inj (hk.symm.trans hkey))
      rw [under_append_cons_of_ne hne] at hgets ⊢
      exact hgets
  · exact forall_mem_insert.2 ⟨⟨_, hkey⟩, (forall_mem_insert.1 hnames).2⟩

theorem read_of_gathered {as bs : List Member} {k : KeySpelling} {τ : Spelling} {f : Field}
    (hkey : k.name = some f.key) (hfield : fieldOf fs f.key = some f)
    (h : Slots.Gathered c fs (membersDocument (as ++ (k, τ) :: bs)) vs) :
    ∃ v, f.read c τ.document = .ok v := by
  obtain ⟨v, hgets⟩ := gets_of_gathered h hfield
  rw [under_append_cons_self hkey] at hgets
  exact ⟨v, (Field.gets_append_cons_iff.1 hgets).2.2⟩

theorem listed_replace :
    ∀ {fs : List Field} (as : List Spelling) {bs : List Spelling} {τ τ' : Spelling} {f : Field}
      {vs : Slots fs}, fs[as.length]? = some f → f.read.Follows c τ τ' →
        Slots.Listed c fs (itemsDocument (as ++ τ :: bs)) vs →
          Slots.Listed c fs (itemsDocument (as ++ τ' :: bs)) vs
  | [], _, _, _, _, _, (), hf, _, _ => nomatch hf
  | g :: fs, [], bs, τ, τ', f, (v, vs), hf, hτ, h => by
      obtain rfl := Option.some.inj hf
      exact ⟨hτ v h.1, h.2⟩
  | g :: fs, σ :: as, bs, τ, τ', f, (v, vs), hf, hτ, h =>
      ⟨h.1, listed_replace as hf hτ h.2⟩

theorem read_of_listed :
    ∀ {fs : List Field} (as : List Spelling) {bs : List Spelling} {τ : Spelling} {f : Field}
      {vs : Slots fs}, fs[as.length]? = some f →
        Slots.Listed c fs (itemsDocument (as ++ τ :: bs)) vs → ∃ v, f.read c τ.document = .ok v
  | [], _, _, _, _, (), hf, _ => nomatch hf
  | g :: fs, [], bs, τ, f, (v, vs), hf, h => by
      obtain rfl := Option.some.inj hf
      exact ⟨v, h.1⟩
  | g :: fs, σ :: as, bs, τ, f, (v, vs), hf, h => read_of_listed as hf h.2

namespace Reader

variable {α : Type} {r : Reader α}

theorem itemsOf_replace {bs : List Spelling} {τ τ' : Spelling} (hτ : r.Follows c τ τ') :
    ∀ {as : List Spelling} {vs : List α},
      r.itemsOf c (itemsDocument (as ++ τ :: bs)) = .ok vs →
        r.itemsOf c (itemsDocument (as ++ τ' :: bs)) = .ok vs
  | [], vs, h => by
      obtain ⟨v, us, hv, hus, rfl⟩ := itemsOf_cons_iff.1 h
      exact itemsOf_cons_iff.2 ⟨v, us, hτ v hv, hus, rfl⟩
  | σ :: as, vs, h => by
      obtain ⟨v, us, hv, hus, rfl⟩ := itemsOf_cons_iff.1 h
      exact itemsOf_cons_iff.2 ⟨v, us, hv, itemsOf_replace hτ hus, rfl⟩

theorem read_of_itemsOf {bs : List Spelling} {τ : Spelling} :
    ∀ {as : List Spelling} {vs : List α},
      r.itemsOf c (itemsDocument (as ++ τ :: bs)) = .ok vs → ∃ v, r c τ.document = .ok v
  | [], vs, h => by
      obtain ⟨v, us, hv, -⟩ := itemsOf_cons_iff.1 h
      exact ⟨v, hv⟩
  | σ :: as, vs, h => by
      obtain ⟨-, us, -, hus, -⟩ := itemsOf_cons_iff.1 h
      exact read_of_itemsOf hus

end Reader

/-! ### Changes -/

/-- Which members may stand for which ones in an object that is read from a source as a record
of some fields. -/
abbrev Change := Source → List Field → List Member → List Member → Prop

/-- What the fields gathered they gather again, and what was read through is read through
again. -/
structure Harmless (change : Change) : Prop where
  gets : ∀ {s fs ms ms'}, change s fs ms ms' → ∀ {key f}, fieldOf fs key = some f → ∀ {c v},
    f.Gets c (under key ms) v → f.Gets c (under key ms') v
  names : ∀ {s fs ms ms'}, change s fs ms ms' → (∀ m ∈ ms, Quoted.Part.Names m.1.parts) →
    ∀ m ∈ ms', Quoted.Part.Names m.1.parts
  readable : ∀ {s fs ms ms'}, change s fs ms ms' → s ≠ .text → (∀ m ∈ ms, m.2.Readable) →
    ∀ m ∈ ms', m.2.Readable

/-- No bracket is opened deeper than before. -/
def Level (change : Change) : Prop :=
  ∀ {s fs ms ms'}, change s fs ms ms' → ∀ h, (∀ m ∈ ms, m.2.height ≤ h) →
    ∀ m ∈ ms', m.2.height ≤ h

/-- Some field gets nothing afterwards. -/
def Fatal (change : Change) : Prop :=
  ∀ {s fs ms ms'}, change s fs ms ms' → ∃ key f, fieldOf fs key = some f ∧
    ∀ c v, ¬ f.Gets c (under key ms') v

/-- The members in another order. -/
def Permuted : Change :=
  fun _ _ ms ms' => ms.Perm ms'

/-- One more member, under a key that no field has; `p` says what its value may be. -/
inductive Inserted (p : Source → Spelling → Prop) : Change
  | insert {s : Source} {fs : List Field} (as bs : List Member) {k : KeySpelling} {τ : Spelling}
      {key : String} (hkey : k.name = some key) (hfield : fieldOf fs key = none) (hvalue : p s τ) :
      Inserted p s fs (as ++ bs) (as ++ (k, τ) :: bs)

/-- One member more or less that is null, under the key of an optional field. -/
inductive Nulled : Change
  | add {s : Source} {fs : List Field} (as bs : List Member) {k : KeySpelling}
      {before behind : Blanks} {f : Field} (hkey : k.name = some f.key)
      (hfield : fieldOf fs f.key = some f) (hoptional : f.IsOptional)
      (habsent : ∀ m ∈ as ++ bs, m.1.name ≠ some f.key) :
      Nulled s fs (as ++ bs) (as ++ (k, .scalar before .null behind) :: bs)
  | drop {s : Source} {fs : List Field} (as bs : List Member) {k : KeySpelling}
      {before behind : Blanks} {f : Field} (hkey : k.name = some f.key)
      (hfield : fieldOf fs f.key = some f) (hoptional : f.IsOptional) :
      Nulled s fs (as ++ (k, .scalar before .null behind) :: bs) (as ++ bs)

/-- One more member under the key of a field that has a member already. -/
inductive Repeated : Change
  | again {s : Source} {fs : List Field} (as bs : List Member) {k : KeySpelling} {τ : Spelling}
      {key : String} (hkey : k.name = some key) (hfield : fieldOf fs key ≠ none)
      (htwice : ∃ m ∈ as ++ bs, m.1.name = some key) :
      Repeated s fs (as ++ bs) (as ++ (k, τ) :: bs)

/-! ### Laws of changes -/

theorem permuted_harmless : Harmless Permuted where
  gets h := by
    intro key f _ c v hgets
    exact hgets.perm ((h.filter _).map _)
  names h hnames m hm := hnames m (h.symm.subset hm)
  readable h _ hread m hm := hread m (h.symm.subset hm)

theorem permuted_level : Level Permuted :=
  fun h _ hheight m hm => hheight m (h.symm.subset hm)

theorem inserted_harmless {p : Source → Spelling → Prop}
    (hp : ∀ s τ, p s τ → s ≠ .text → τ.Readable) : Harmless (Inserted p) where
  gets := by
    rintro s _ _ _ ⟨as, bs, hkey, hfield, -⟩ key f hf c v hgets
    rwa [under_append_cons_of_ne]
    intro h
    obtain rfl := Option.some.inj (hkey.symm.trans h)
    exact nomatch hfield.symm.trans hf
  names := by
    rintro s _ _ _ ⟨as, bs, hkey, -, -⟩ hnames
    exact forall_mem_insert.2 ⟨⟨_, hkey⟩, hnames⟩
  readable := by
    rintro s _ _ _ ⟨as, bs, -, -, hvalue⟩ hs hread
    exact forall_mem_insert.2 ⟨hp s _ hvalue hs, hread⟩

/-- The field that a null stands for gets the same with it and without it. -/
theorem gets_null_insert_iff {f g : Field} {key : String} {as bs : List Member} {k : KeySpelling}
    {before behind : Blanks} {v : g.Value} (hkey : k.name = some f.key)
    (hfield : fieldOf fs f.key = some f) (hoptional : f.IsOptional) (hg : fieldOf fs key = some g)
    (habsent : key = f.key → under key (as ++ bs) = []) :
    g.Gets c (under key (as ++ (k, .scalar before .null behind) :: bs)) v ↔
      g.Gets c (under key (as ++ bs)) v := by
  by_cases h : key = f.key
  · subst h
    obtain rfl := Option.some.inj (hfield.symm.trans hg)
    obtain ⟨has, hbs⟩ :=
      List.append_eq_nil_iff.1 ((under_append f.key as bs).symm.trans (habsent rfl))
    rw [under_append_cons_self hkey, habsent rfl, has, hbs]
    exact hoptional.gets_null_iff
  · rw [under_append_cons_of_ne]
    exact fun hk => h (Option.some.inj (hk.symm.trans hkey))

theorem nulled_harmless : Harmless Nulled where
  gets := by
    rintro s _ _ _ (⟨as, bs, hkey, hfield, hoptional, habsent⟩ | ⟨as, bs, hkey, hfield, hoptional⟩)
      key g hg c v hgets
    · refine (gets_null_insert_iff hkey hfield hoptional hg ?_).2 hgets
      rintro rfl
      exact under_eq_nil habsent
    · refine (gets_null_insert_iff hkey hfield hoptional hg ?_).1 hgets
      rintro rfl
      rw [under_append_cons_self hkey] at hgets
      obtain ⟨has, hbs, -⟩ := Field.gets_append_cons_iff.1 hgets
      rw [under_append, has, hbs, List.append_nil]
  names := by
    rintro s _ _ _ (⟨as, bs, hkey, -, -, -⟩ | ⟨as, bs, -, -, -⟩) hnames
    · exact forall_mem_insert.2 ⟨⟨_, hkey⟩, hnames⟩
    · exact (forall_mem_insert.1 hnames).2
  readable := by
    rintro s _ _ _ (⟨as, bs, -, -, -, -⟩ | ⟨as, bs, -, -, -⟩) - hread
    · exact forall_mem_insert.2 ⟨trivial, hread⟩
    · exact (forall_mem_insert.1 hread).2

theorem nulled_level : Level Nulled := by
  rintro s _ _ _ (⟨as, bs, -, -, -, -⟩ | ⟨as, bs, -, -, -⟩) h hheight
  · exact forall_mem_insert.2 ⟨Nat.zero_le h, hheight⟩
  · exact (forall_mem_insert.1 hheight).2

/-- A field gets nothing from two members. -/
theorem repeated_fatal : Fatal Repeated := by
  rintro s fs _ _ ⟨as, bs, hkey, hfield, htwice⟩
  obtain ⟨f, hf⟩ := Option.ne_none_iff_exists'.1 hfield
  refine ⟨_, f, hf, fun c v hgets => ?_⟩
  rw [under_append_cons_self hkey] at hgets
  obtain ⟨has, hbs, -⟩ := Field.gets_append_cons_iff.1 hgets
  refine under_ne_nil htwice ?_
  rw [under_append, has, hbs]
  rfl

end DeviceTwin.Json
