import DeviceTwin.Settings.Node

/-!
# What stands in a tree of settings

A source is laid over the tree entry by entry, and of several entries for one place the last
one stays. So what is found in the tree is what the last entry for it says, or what the tree
said before (`foldl_saw`). This holds of a section (`Node.get?_putAll`), of the sections of a
tree (`Node.under_put_table`), and of a single setting (`Node.under_putAt`).
-/

namespace DeviceTwin.Settings

open DeviceTwin.Text

section Last

universe u v

variable {α : Type u} {β σ : Type}

/-- What the last one of a list says, of those that say anything. -/
def lastSome? (f : α → Option β) (as : List α) : Option β :=
  as.reverse.findSome? f

theorem lastSome?_cons (f : α → Option β) (a : α) (as : List α) :
    lastSome? f (a :: as) = (lastSome? f as).or (f a) := by
  simp [lastSome?, List.findSome?_append]

/-- What is seen of a state, if each step gives it or leaves it as it is, was given by the last
step that gives it. -/
theorem foldl_saw {ι : Type v} {step : σ → α → σ} {g : ι → σ → Option β}
    {f : ι → α → Option β} {P : σ → Prop} {as : List α}
    (hstep : ∀ a ∈ as, ∀ s, P s → P (step s a) ∧ ∀ i, g i (step s a) = (f i a).or (g i s))
    {s : σ} (hs : P s) :
    P (as.foldl step s) ∧ ∀ i, g i (as.foldl step s) = (lastSome? (f i) as).or (g i s) := by
  induction as generalizing s with
  | nil => exact ⟨hs, fun _ => rfl⟩
  | cons a as ih =>
      obtain ⟨hfirst, hrest⟩ := List.forall_mem_cons.1 hstep
      obtain ⟨hs', hsaw⟩ := hfirst s hs
      obtain ⟨hlast, hseen⟩ := ih hrest hs'
      refine ⟨hlast, fun i => ?_⟩
      rw [List.foldl_cons, hseen, hsaw, lastSome?_cons, Option.or_assoc]

end Last

namespace Node

def IsTable (n : Node) : Prop :=
  ∃ origin entries, n = table origin entries

theorem isTable_table (origin : Option String) (entries : List (String × Node)) :
    (table origin entries).IsTable :=
  ⟨origin, entries, rfl⟩

theorem not_isTable_scalar (origin : Option String) (value : Scalar) :
    ¬ (scalar origin value).IsTable := by
  rintro ⟨_, _, ⟨⟩⟩

theorem isTable_setEntry (n : Node) (key : String) (value : Node) :
    (n.setEntry key value).IsTable := by
  cases n <;> exact ⟨_, _, rfl⟩

theorem isTable_put (key : String) (root value : Node) : (put key root value).IsTable := by
  cases value <;> exact isTable_setEntry root _ _

theorem putAll_eq_foldl (root : Node) (entries : List (String × Node)) :
    putAll root entries = entries.foldl (fun root e => put e.1 root e.2) root := by
  induction entries generalizing root with
  | nil => rfl
  | cons e entries ih => exact ih (put e.1 root e.2)

theorem isTable_putAll {root : Node} (h : root.IsTable) (entries : List (String × Node)) :
    (putAll root entries).IsTable := by
  induction entries generalizing root with
  | nil => exact h
  | cons e entries ih => exact ih (isTable_put e.1 root e.2)

/-! ### Values in a section -/

/-- The value that an entry has for a key. -/
def valueOf? (name : String) (e : String × Node) : Option Node :=
  if lowered e.1 = name then some e.2 else none

/-- What is no table takes the place of what was there. -/
theorem put_of_not_isTable {value : Node} (h : ¬ value.IsTable) (key : String) (root : Node) :
    put key root value = root.setEntry (lowered key) value := by
  cases value with
  | table origin entries => exact absurd ⟨origin, entries, rfl⟩ h
  | scalar origin value => rfl
  | list origin items => rfl

theorem get?_put {value : Node} (h : ¬ value.IsTable) (key name : String) (root : Node) :
    (put key root value).get? name = (valueOf? name (key, value)).or (root.get? name) := by
  by_cases hkey : lowered key = name
  · rw [put_of_not_isTable h, valueOf?, if_pos hkey, ← hkey, get?_setEntry_self]
    rfl
  · rw [get?_put_of_ne (Ne.symm hkey), valueOf?, if_neg hkey]
    rfl

theorem get?_putAll {entries : List (String × Node)} (h : ∀ e ∈ entries, ¬ e.2.IsTable)
    (name : String) (root : Node) :
    (putAll root entries).get? name =
      (lastSome? (valueOf? name) entries).or (root.get? name) := by
  rw [putAll_eq_foldl]
  have hstep : ∀ e ∈ entries, ∀ s : Node, True → True ∧ ∀ name,
      (put e.1 s e.2).get? name = (valueOf? name e).or (s.get? name) :=
    fun e he s _ => ⟨trivial, fun name => get?_put (h e he) e.1 name s⟩
  exact (foldl_saw (g := fun name (n : Node) => n.get? name) hstep trivial).2 name

/-! ### Settings in a tree -/

/-- What stands under a name in a section. -/
def under (root : Node) (group name : String) : Option Node :=
  (root.get? group).bind (·.get? name)

/-- The value that a section has for a setting. -/
def settingOf? (group name : String) (e : String × Node) : Option Node :=
  if lowered e.1 = group then lastSome? (valueOf? name) e.2.entries else none

/-- A tree of which every entry is a section. -/
structure Sectioned (root : Node) : Prop where
  isTable : root.IsTable
  sections : ∀ group n, root.get? group = some n → n.IsTable

theorem sectioned_empty : empty.Sectioned :=
  ⟨isTable_table none [], fun _ _ h => nomatch h⟩

theorem Sectioned.setEntry {root : Node} (h : root.Sectioned) (group : String) {value : Node}
    (hvalue : value.IsTable) : (root.setEntry group value).Sectioned where
  isTable := isTable_setEntry root group value
  sections other n hn := by
    by_cases heq : other = group
    · rw [heq, get?_setEntry_self] at hn
      exact Option.some.inj hn ▸ hvalue
    · rw [get?_setEntry_of_ne heq] at hn
      exact h.sections other n hn

theorem Sectioned.isTable_getD {root : Node} (h : root.Sectioned) (group : String) :
    ((root.get? group).getD empty).IsTable := by
  cases hn : root.get? group with
  | none => exact isTable_table none []
  | some n => exact h.sections group n hn

theorem Sectioned.put_table {root : Node} (h : root.Sectioned) (key : String)
    (origin : Option String) (entries : List (String × Node)) :
    (put key root (table origin entries)).Sectioned :=
  h.setEntry (lowered key) (isTable_putAll (h.isTable_getD (lowered key)) entries)

theorem under_setEntry_self (root : Node) (group name : String) (value : Node) :
    (root.setEntry group value).under group name = value.get? name := by
  rw [under, get?_setEntry_self, Option.bind_some]

theorem under_setEntry_of_ne {group other : String} (h : other ≠ group) (root value : Node)
    (name : String) : (root.setEntry group value).under other name = root.under other name := by
  rw [under, under, get?_setEntry_of_ne h]

theorem get?_getD (root : Node) (group name : String) {n : Node} (hn : n.get? name = none) :
    ((root.get? group).getD n).get? name = root.under group name := by
  rw [under]
  cases root.get? group with
  | none => exact hn
  | some m => rfl

/-- A section laid over a tree gives the settings that it has. -/
theorem under_put_table {entries : List (String × Node)} (h : ∀ e ∈ entries, ¬ e.2.IsTable)
    (key group name : String) (origin : Option String) (root : Node) :
    (put key root (table origin entries)).under group name =
      (settingOf? group name (key, table origin entries)).or (root.under group name) := by
  by_cases hkey : lowered key = group
  · rw [settingOf?, if_pos hkey, put, ← hkey, under_setEntry_self, get?_putAll h,
      get?_getD root _ _ rfl]
    rfl
  · rw [settingOf?, if_neg hkey, put, under_setEntry_of_ne (Ne.symm hkey)]
    rfl

/-- A section, as an entry of a tree: a table that holds no tables. -/
def IsLeafTable (n : Node) : Prop :=
  ∃ origin entries, n = table origin entries ∧ ∀ v ∈ entries, ¬ v.2.IsTable

theorem Sectioned.putAll {root : Node} (h : root.Sectioned) {entries : List (String × Node)}
    (hentries : ∀ e ∈ entries, e.2.IsLeafTable) : (putAll root entries).Sectioned := by
  induction entries generalizing root with
  | nil => exact h
  | cons e entries ih =>
      obtain ⟨⟨origin, values, hvalue, -⟩, hrest⟩ := List.forall_mem_cons.1 hentries
      obtain ⟨key, value⟩ := e
      obtain rfl : value = table origin values := hvalue
      exact ih (h.put_table key origin values) hrest

/-- Of the sections laid over a tree, the last one that has a setting gives it. -/
theorem under_putAll {entries : List (String × Node)} (h : ∀ e ∈ entries, e.2.IsLeafTable)
    (group name : String) (root : Node) :
    (putAll root entries).under group name =
      (lastSome? (settingOf? group name) entries).or (root.under group name) := by
  rw [putAll_eq_foldl]
  have hstep : ∀ e ∈ entries, ∀ s : Node, True → True ∧ ∀ i : String × String,
      (put e.1 s e.2).under i.1 i.2 = (settingOf? i.1 i.2 e).or (s.under i.1 i.2) := by
    intro e he s _
    obtain ⟨origin, values, hvalue, hleaf⟩ := h e he
    obtain ⟨key, value⟩ := e
    obtain rfl : value = table origin values := hvalue
    exact ⟨trivial, fun i => under_put_table hleaf key i.1 i.2 origin s⟩
  exact (foldl_saw (g := fun i (n : Node) => n.under i.1 i.2) hstep trivial).2 (group, name)

/-- Where a table with entries was laid stands a table, whatever stood there before. -/
theorem isTable_get?_putAll {group : String} {entries : List (String × Node)}
    (h : ∀ e ∈ entries, ∃ origin v values, e.2 = table origin (v :: values)) {root : Node}
    (hroot : (∀ n ∈ root.get? group, n.IsTable) ∨ ∃ e ∈ entries, lowered e.1 = group) :
    ∀ n ∈ (putAll root entries).get? group, n.IsTable := by
  induction entries generalizing root with
  | nil => exact hroot.resolve_right fun ⟨_, he, _⟩ => absurd he List.not_mem_nil
  | cons e entries ih =>
      obtain ⟨⟨origin, v, values, hvalue⟩, hrest⟩ := List.forall_mem_cons.1 h
      obtain ⟨key, value⟩ := e
      obtain rfl : value = table origin (v :: values) := hvalue
      refine ih hrest ?_
      by_cases hkey : lowered key = group
      · left
        intro n hn
        rw [← hkey, get?_put_table] at hn
        obtain rfl := Option.some.inj hn
        exact isTable_putAll (isTable_put v.1 _ v.2) values
      · rw [get?_put_of_ne (Ne.symm hkey)]
        refine hroot.imp_right fun ⟨e, he, heq⟩ => ?_
        rcases List.mem_cons.1 he with rfl | he
        · exact absurd heq hkey
        · exact ⟨e, he, heq⟩

/-- The value at a way of two keys, if it is the one of a setting. -/
def pairOf? (group name : String) (e : (String × String) × Node) : Option Node :=
  if lowered e.1.1 = group then valueOf? name (e.1.2, e.2) else none

theorem Sectioned.putAt {root : Node} (h : root.Sectioned) (group name : String)
    (value : Node) : (putAt value [.key group, .key name] root).Sectioned :=
  h.setEntry (lowered group) (isTable_put name _ value)

/-- A value laid over a tree gives the setting at its way. -/
theorem under_putAt {value : Node} (h : ¬ value.IsTable) (a b group name : String)
    (root : Node) :
    (putAt value [.key a, .key b] root).under group name =
      (pairOf? group name ((a, b), value)).or (root.under group name) := by
  by_cases hkey : lowered a = group
  · rw [pairOf?, if_pos hkey, putAt, ← hkey, under_setEntry_self, Node.putAt, get?_put h,
      get?_getD root _ _ rfl]
  · rw [pairOf?, if_neg hkey, putAt, under_setEntry_of_ne (Ne.symm hkey)]
    rfl

end Node

end DeviceTwin.Settings
