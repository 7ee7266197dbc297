import DeviceTwin.Proofs.Settings.Tree
import DeviceTwin.Proofs.Text.Table
import DeviceTwin.Settings.Environment
import Mathlib.Data.List.Nodup

/-!
# Sources out of hash tables

The entries of a source come in the order of a hash table, and of several entries for one place
the last one counts. Where no more than one entry is for a place the order makes no difference
(`lastSome?_perm`), and so it is with variables, as a table keeps one value under a key
(`lastSome?_settings`). Of a section of a file, the order of the table changes no more than the
order of its entries (`Node.IsLeafTable.entries_hashed_perm`).
-/

namespace DeviceTwin.Settings

open DeviceTwin.Text

section Last

universe u v

variable {α : Type u} {α' : Type v} {β : Type}

theorem lastSome?_eq_none {f : α → Option β} {as : List α} (h : ∀ a ∈ as, f a = none) :
    lastSome? f as = none :=
  List.findSome?_eq_none_iff.2 fun a ha => h a (List.mem_reverse.1 ha)

theorem lastSome?_append (f : α → Option β) (as bs : List α) :
    lastSome? f (as ++ bs) = (lastSome? f bs).or (lastSome? f as) := by
  simp [lastSome?, List.findSome?_append]

theorem lastSome?_map (f : α → Option β) (g : α' → α) (as : List α') :
    lastSome? f (as.map g) = lastSome? (f ∘ g) as := by
  rw [lastSome?, ← List.map_reverse, List.findSome?_map, lastSome?]

theorem lastSome?_filterMap (f : α → Option β) (g : α' → Option α) (as : List α') :
    lastSome? f (as.filterMap g) = lastSome? (fun a => (g a).bind f) as := by
  induction as with
  | nil => rfl
  | cons a as ih =>
      cases hg : g a with
      | none => rw [List.filterMap_cons_none hg, lastSome?_cons, ih, hg, Option.bind_none,
          Option.or_none]
      | some b => rw [List.filterMap_cons_some hg, lastSome?_cons, lastSome?_cons, ih, hg,
          Option.bind_some]

theorem lastSome?_congr {f g : α → Option β} {as : List α} (h : ∀ a ∈ as, f a = g a) :
    lastSome? f as = lastSome? g as := by
  induction as with
  | nil => rfl
  | cons a as ih =>
      obtain ⟨hfirst, hrest⟩ := List.forall_mem_cons.1 h
      rw [lastSome?_cons, lastSome?_cons, hfirst, ih hrest]

/-- If only one of a list says something, the order does not matter. -/
theorem lastSome?_perm {f : α → Option β} {as bs : List α} (h : as.Perm bs)
    (hone : as.Pairwise fun a b => f a = none ∨ f b = none) :
    lastSome? f as = lastSome? f bs := by
  induction h with
  | nil => rfl
  | cons a _ ih => rw [lastSome?_cons, lastSome?_cons, ih (List.pairwise_cons.1 hone).2]
  | swap a b as =>
      rw [lastSome?_cons, lastSome?_cons, lastSome?_cons, lastSome?_cons, Option.or_assoc,
        Option.or_assoc]
      rcases (List.pairwise_cons.1 hone).1 a List.mem_cons_self with hnone | hnone <;>
        rw [hnone, Option.none_or, Option.or_none]
  | trans h₁ _ ih₁ ih₂ =>
      exact (ih₁ hone).trans (ih₂ ((h₁.pairwise_iff fun h => h.symm).1 hone))

/-- Of things that are all different in some respect, only one can have a given value there. -/
theorem pairwise_none_or {κ : Type} {g : α → κ} {key : κ} {f : α → Option β} {as : List α}
    (h : (as.map g).Nodup) (hf : ∀ a, g a ≠ key → f a = none) :
    as.Pairwise fun a b => f a = none ∨ f b = none := by
  refine (List.pairwise_map.1 h).imp fun {a b} hne => ?_
  by_cases ha : g a = key
  · exact .inr (hf b fun hb => hne (ha.trans hb.symm))
  · exact .inl (hf a ha)

end Last

/-! ### Tables -/

/-- The value of an entry, if it is the one under a key. -/
def entryOf? {α : Type} (key : String) (e : String × α) : Option α :=
  if e.1 = key then some e.2 else none

theorem pairwise_entryOf? {α : Type} {entries : List (String × α)}
    (h : (entries.map Prod.fst).Nodup) (key : String) :
    entries.Pairwise fun a b => entryOf? key a = none ∨ entryOf? key b = none :=
  pairwise_none_or h fun _ hne => if_neg hne

/-- A table that is filled keeps the last value under a key. -/
theorem get?_ofList {α : Type} (key : String) (entries : List (String × α)) :
    (Table.ofList entries).get? key = lastSome? (entryOf? key) entries := by
  have hstep : ∀ e ∈ entries, ∀ t : Table α, True → True ∧ ∀ key,
      (t.insert e.1 e.2).get? key = (entryOf? key e).or (t.get? key) := by
    refine fun e _ t _ => ⟨trivial, fun key => ?_⟩
    by_cases hkey : e.1 = key
    · rw [entryOf?, if_pos hkey, ← hkey, Table.get?_insert_self, Option.some_or]
    · rw [entryOf?, if_neg hkey, Table.get?_insert_of_ne (Ne.symm hkey), Option.none_or]
  have hlast := (foldl_saw (g := Table.get?) hstep (s := Table.empty) trivial).2 key
  rwa [show Table.get? key (Table.empty : Table α) = none from rfl, Option.or_none] at hlast

theorem lastSome?_entries {α : Type} (key : String) (t : Table α) :
    lastSome? (entryOf? key) t.entries = t.get? key := by
  have hperm := lastSome?_perm t.entries.reverse_perm.symm
    (pairwise_entryOf? t.rising.nodup key)
  rw [hperm, lastSome?, List.reverse_reverse, Table.get?]
  induction t.entries with
  | nil => rfl
  | cons e es ih =>
      rw [List.findSome?_cons, lookupEntry_cons, entryOf?]
      split_ifs
      · rfl
      · exact ih

/-- The entries of a table that stand under names of a list, in the order of the list. -/
def picked {α : Type} (names : List String) (entries : List (String × α)) :
    List (String × α) :=
  names.filterMap fun name => (lookupEntry name entries).map (name, ·)

theorem picked_append {α : Type} (names names' : List String) (entries : List (String × α)) :
    picked (names ++ names') entries = picked names entries ++ picked names' entries :=
  List.filterMap_append

theorem picked_singleton {α : Type} (name : String) (entries : List (String × α)) :
    picked [name] entries = (lookupEntry name entries).toList.map (name, ·) := by
  cases h : lookupEntry name entries <;> simp [picked, h]

theorem picked_keys {α : Type} {entries entries' : List (String × α)}
    (h : ∀ e ∈ entries, lookupEntry e.1 entries' = some e.2) :
    picked (entries.map Prod.fst) entries' = entries := by
  rw [picked, List.filterMap_map]
  refine (List.filterMap_congr fun e he => ?_).trans List.filterMap_some
  rw [Function.comp_apply, h e he]
  rfl

/-- A key that is picked in the middle gives its value, if it has one, in the middle. -/
theorem picked_middle {α : Type} {key : String} {front back entries : List (String × α)}
    (hfront : ∀ e ∈ front, lookupEntry e.1 entries = some e.2)
    (hback : ∀ e ∈ back, lookupEntry e.1 entries = some e.2) :
    picked (front.map Prod.fst ++ key :: back.map Prod.fst) entries =
      front ++ (lookupEntry key entries).toList.map (key, ·) ++ back := by
  rw [picked_append, ← List.singleton_append, picked_append, picked_keys hfront,
    picked_keys hback, picked_singleton, List.append_assoc]

theorem ne_of_nodup_middle {α : Type} {key : String} {n : α} {front back : List (String × α)}
    (h : ((front ++ (key, n) :: back).map Prod.fst).Nodup) :
    (∀ e ∈ front, e.1 ≠ key) ∧ ∀ e ∈ back, e.1 ≠ key := by
  rw [List.map_append, List.map_cons, List.nodup_middle, List.nodup_cons, ← List.map_append] at h
  have hne : ∀ e ∈ front ++ back, e.1 ≠ key :=
    fun e he heq => h.1 (List.mem_map.2 ⟨e, he, heq⟩)
  exact List.forall_mem_append.1 hne

theorem picked_perm {α : Type} {names : List String} {entries : List (String × α)}
    (hnames : names.Nodup) (hkeys : (entries.map Prod.fst).Nodup)
    (hall : ∀ e ∈ entries, e.1 ∈ names) : (picked names entries).Perm entries := by
  have hnodup : (picked names entries).Nodup := by
    refine hnames.filterMap fun a a' e ha ha' => ?_
    obtain ⟨_, -, rfl⟩ := Option.map_eq_some_iff.1 ha
    obtain ⟨_, -, heq⟩ := Option.map_eq_some_iff.1 ha'
    exact (congrArg Prod.fst heq).symm
  refine (List.perm_ext_iff_of_nodup hnodup hkeys.of_map).2 fun e => ?_
  rw [picked, List.mem_filterMap]
  constructor
  · rintro ⟨name, -, h⟩
    obtain ⟨value, hvalue, rfl⟩ := Option.map_eq_some_iff.1 h
    exact (lookupEntry_eq_some_iff hkeys).1 hvalue
  · intro he
    exact ⟨e.1, hall e he, by rw [(lookupEntry_eq_some_iff hkeys).2 he]; rfl⟩

section Hashed

variable [HashOrder]

theorem order_singleton {α : Type} (address : List String) (e : String × α) :
    HashOrder.order address [e] = [e] :=
  List.perm_singleton.1 (HashOrder.perm address [e])

theorem settings_perm (env : Environment) : env.settings.Perm env.collected.entries :=
  HashOrder.perm [] _

/-- Of the variables for a key the last one counts, in whatever order the keys come. -/
theorem lastSome?_settings (env : Environment) (key : String) :
    lastSome? (entryOf? key) env.settings =
      lastSome? (entryOf? key) (env.values.filterMap Environment.setting?) := by
  have hone := pairwise_entryOf? env.collected.rising.nodup key
  rw [← lastSome?_perm (settings_perm env).symm hone, lastSome?_entries, Environment.collected,
    get?_ofList]

theorem mem_values_of_mem_settings {env : Environment} {e : String × Node}
    (h : e ∈ env.settings) : ∃ v ∈ env.values, Environment.setting? v = some e :=
  List.mem_filterMap.1 (Table.mem_of_mem_ofList ((settings_perm env).mem_iff.1 h))

theorem settings_eq_nil {env : Environment}
    (h : ∀ v ∈ env.values, Environment.settingKey? v.1 = none) : env.settings = [] := by
  refine List.eq_nil_iff_forall_not_mem.2 fun e he => ?_
  obtain ⟨v, hv, hset⟩ := mem_values_of_mem_settings he
  rw [Environment.setting?, h v hv] at hset
  cases hset

namespace Node

theorem hashed_of_not_isTable {n : Node} (h : ¬ n.IsTable) (address : List String) :
    n.hashed address = n := by
  cases n with
  | table origin entries => exact absurd ⟨origin, entries, rfl⟩ h
  | scalar origin value => rfl
  | list origin items => rfl

theorem hashedEntries_eq_map (address : List String) (entries : List (String × Node)) :
    hashedEntries address entries = entries.map fun e => (e.1, e.2.hashed (e.1 :: address)) := by
  induction entries with
  | nil => rfl
  | cons e entries ih => rw [hashedEntries, ih, List.map_cons]

/-- What is no table comes out of a hash table as it went in. -/
theorem hashedEntries_of_not_isTable {entries : List (String × Node)}
    (h : ∀ e ∈ entries, ¬ e.2.IsTable) (address : List String) :
    hashedEntries address entries = entries := by
  rw [hashedEntries_eq_map]
  refine (List.map_congr_left fun e he => ?_).trans (List.map_id entries)
  rw [hashed_of_not_isTable (h e he)]
  rfl

namespace IsLeafTable

variable {n : Node} (h : n.IsLeafTable) (address : List String)

include h

theorem entries_hashed_perm : (n.hashed address).entries.Perm n.entries := by
  obtain ⟨origin, values, rfl, hleaf⟩ := h
  rw [hashed, hashedEntries_of_not_isTable hleaf]
  exact HashOrder.perm address values

theorem hashed : (n.hashed address).IsLeafTable := by
  have hperm := h.entries_hashed_perm address
  obtain ⟨origin, values, rfl, hleaf⟩ := h
  exact ⟨origin, _, rfl, fun v hv => hleaf v (hperm.mem_iff.1 hv)⟩

end IsLeafTable

/-- The entries of a source come in the order of a hash table, and so do those of each. -/
theorem hashedSource_perm (origin : String) (entries : List (String × Node)) :
    (hashedSource origin entries).Perm
      (entries.map fun e => (e.1, e.2.hashed [e.1, origin])) := by
  rw [hashedSource, hashedEntries_eq_map]
  exact HashOrder.perm [origin] _

end Node

/-! ### Other orders -/

open Classical in
/-- The order in which the table without an address follows a list of names, if its keys are
among them, and all other tables are as they were. -/
noncomputable abbrev following (names : List String) : HashOrder where
  order address entries :=
    if address = [] ∧ (picked names entries).Perm entries then picked names entries
    else HashOrder.order address entries
  perm address entries := by
    split_ifs with h
    · exact h.2
    · exact HashOrder.perm address entries

theorem order_following {α : Type} {names address : List String} (h : address ≠ [])
    (entries : List (String × α)) :
    (following names).order address entries = HashOrder.order address entries :=
  if_neg fun hnil => h hnil.1

namespace Node

mutual

theorem hashed_following {names address : List String} (h : address ≠ []) :
    ∀ n : Node, @hashed (following names) address n = hashed address n
  | scalar .. => rfl
  | list .. => rfl
  | table origin entries => by
      change table origin ((following names).order address _) = _
      rw [order_following h, hashedEntries_following entries, hashed]

theorem hashedEntries_following {names address : List String} :
    ∀ entries : List (String × Node),
      @hashedEntries (following names) address entries = hashedEntries address entries
  | [] => rfl
  | (key, n) :: entries => by
      change (key, @hashed (following names) (key :: address) n) :: _ = _
      rw [hashed_following (List.cons_ne_nil key address) n, hashedEntries_following entries,
        hashedEntries]

end

theorem hashedSource_following (names : List String) (origin : String)
    (entries : List (String × Node)) :
    @hashedSource (following names) origin entries = hashedSource origin entries := by
  change (following names).order [origin] _ = _
  rw [order_following (List.cons_ne_nil origin []), hashedEntries_following, hashedSource]

end Node

theorem settings_following {env : Environment} {names : List String} (hnames : names.Nodup)
    (hall : ∀ e ∈ env.collected.entries, e.1 ∈ names) :
    @Environment.settings (following names) env = picked names env.collected.entries :=
  if_pos ⟨rfl, picked_perm hnames env.collected.rising.nodup hall⟩

/-- The variables of two environments that agree in all keys but one can come in the same order
in front of what they say under that key, and behind it. -/
theorem exists_settings_following {env env' : Environment} {key : String} {n : Node}
    (hself : env.collected.get? key = some n)
    (hsame : ∀ other, other ≠ key → env'.collected.get? other = env.collected.get? other) :
    ∃ names front back, env.settings = front ++ (key, n) :: back ∧ (∀ e ∈ back, e.1 ≠ key) ∧
      @Environment.settings (following names) env' =
        front ++ (env'.collected.get? key).toList.map (fun n => (key, n)) ++ back := by
  have hperm := settings_perm env
  have hmem : (key, n) ∈ env.settings := hperm.mem_iff.2 (Table.get?_eq_some_iff.1 hself)
  have hnodup : (env.settings.map Prod.fst).Nodup :=
    (hperm.map Prod.fst).nodup_iff.2 env.collected.rising.nodup
  obtain ⟨front, back, hsettings⟩ := List.append_of_mem hmem
  have hall : ∀ e ∈ env'.collected.entries, e.1 ∈ env.settings.map Prod.fst := by
    intro e he
    by_cases hkey : e.1 = key
    · exact hkey ▸ List.mem_map_of_mem hmem
    · have hget := Table.get?_eq_some_iff.2 he
      rw [hsame e.1 hkey, Table.get?_eq_some_iff, ← hperm.mem_iff] at hget
      exact List.mem_map_of_mem hget
  have hother : ∀ e ∈ env.settings, e.1 ≠ key →
      lookupEntry e.1 env'.collected.entries = some e.2 := fun e he hne =>
    (hsame e.1 hne).trans (Table.get?_eq_some_iff.2 (hperm.mem_iff.1 he))
  have hpicked := settings_following hnodup hall
  rw [hsettings] at hnodup hother hpicked
  rw [List.map_append, List.map_cons] at hpicked
  rw [List.forall_mem_append, List.forall_mem_cons] at hother
  obtain ⟨hfrontne, hbackne⟩ := ne_of_nodup_middle hnodup
  refine ⟨_, front, back, hsettings, hbackne, hpicked.trans ?_⟩
  exact picked_middle (fun e he => hother.1 e he (hfrontne e he))
    fun e he => hother.2.2 e he (hbackne e he)

end Hashed

end DeviceTwin.Settings
