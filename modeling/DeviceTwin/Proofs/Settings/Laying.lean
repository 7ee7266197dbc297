import DeviceTwin.Proofs.Settings.Layers

/-!
# Values laid over a tree

Two trees may differ in one setting only, of which the second one has a value of its own
(`LaidOver`). What is laid over both of them elsewhere leaves this as it is, and what is laid over
the setting itself makes it so. If the first tree gives settings, then so does the second one, with
that value for the setting (`LaidOver.exists_ofNode`); this is for the settings that are texts.
-/

namespace DeviceTwin.Settings

open DeviceTwin.Text

/-! ### Trees that differ in one setting -/

/-- A way that leads to another place than a setting, and not above or below it either. -/
inductive Elsewhere (group name : String) : List Step → Prop
  | group {a : String} {way : List Step} (h : lowered a ≠ group) :
    Elsewhere group name (.key a :: way)
  | name {a b : String} {way : List Step} (ha : lowered a = group) (hb : lowered b ≠ name) :
    Elsewhere group name (.key a :: .key b :: way)

theorem stepsOf_eq_cons (key : String) : ∃ a way, stepsOf key = .key a :: way := by
  simp only [stepsOf]
  split_ifs
  · exact ⟨key, [], rfl⟩
  · cases stepsAfter? _ _ with
    | none => exact ⟨key, [], rfl⟩
    | some way => exact ⟨_, way, rfl⟩

namespace Node

/-- What a value changes in a tree is one entry, which depends on that entry alone. -/
theorem exists_putAt_eq (value : Node) (a : String) (way : List Step) :
    ∃ f : Option Node → Node, ∀ root : Node,
      putAt value (.key a :: way) root = root.setEntry (lowered a) (f (root.get? (lowered a))) := by
  cases way with
  | nil =>
      cases value with
      | scalar origin value => exact ⟨fun _ => .scalar origin value, fun _ => rfl⟩
      | list origin items => exact ⟨fun _ => .list origin items, fun _ => rfl⟩
      | table origin entries => exact ⟨fun n? => putAll (n?.getD empty) entries, fun _ => rfl⟩
  | cons s way => exact ⟨fun n? => putAt value (s :: way) (n?.getD nothing), fun _ => rfl⟩

theorem isTable_putAt (value : Node) {way : List Step} (h : ∃ a rest, way = .key a :: rest)
    (root : Node) : (putAt value way root).IsTable := by
  obtain ⟨a, rest, rfl⟩ := h
  obtain ⟨f, hf⟩ := exists_putAt_eq value a rest
  rw [hf]
  exact isTable_setEntry root _ _

theorem isTable_putSource {root : Node} (h : root.IsTable) (entries : List (String × Node)) :
    (root.putSource entries).IsTable := by
  induction entries generalizing root with
  | nil => exact h
  | cons e entries ih => exact ih (isTable_putAt e.2 (stepsOf_eq_cons e.1) root)

theorem putSource_append (root : Node) (es es' : List (String × Node)) :
    root.putSource (es ++ es') = (root.putSource es).putSource es' :=
  List.foldl_append

/-- What is no table has no entries. -/
theorem get?_of_not_isTable {n : Node} (h : ¬ n.IsTable) (key : String) : n.get? key = none := by
  cases n with
  | table origin entries => exact absurd ⟨origin, entries, rfl⟩ h
  | scalar origin value => rfl
  | list origin items => rfl

end Node

/-- The second tree has a value for a setting, in a section that is a table, and is the first one
in everything else. -/
structure LaidOver (group name : String) (value root root' : Node) : Prop where
  isTable : root.IsTable
  isTable' : root'.IsTable
  section_isTable : ∀ n ∈ root'.get? group, n.IsTable
  under_self : root'.under group name = some value
  under_eq : ∀ other, other ≠ name → root'.under group other = root.under group other
  get?_eq : ∀ other, other ≠ group → root'.get? other = root.get? other

namespace LaidOver

variable {group name : String} {value root root' : Node}

/-- What is laid over both trees outside of the section changes both alike. -/
theorem putAt_group (h : LaidOver group name value root root') (v : Node) {a : String}
    (way : List Step) (ha : lowered a ≠ group) :
    LaidOver group name value (Node.putAt v (.key a :: way) root)
      (Node.putAt v (.key a :: way) root') := by
  obtain ⟨f, hf⟩ := Node.exists_putAt_eq v a way
  rw [hf, hf, h.get?_eq _ ha]
  refine ⟨Node.isTable_setEntry _ _ _, Node.isTable_setEntry _ _ _, ?_, ?_,
    fun other hother => ?_, fun other hother => ?_⟩
  · rw [Node.get?_setEntry_of_ne (Ne.symm ha)]
    exact h.section_isTable
  · rw [Node.under_setEntry_of_ne (Ne.symm ha)]
    exact h.under_self
  · rw [Node.under_setEntry_of_ne (Ne.symm ha), Node.under_setEntry_of_ne (Ne.symm ha)]
    exact h.under_eq other hother
  · by_cases hkey : other = lowered a
    · rw [hkey, Node.get?_setEntry_self, Node.get?_setEntry_self]
    · rw [Node.get?_setEntry_of_ne hkey, Node.get?_setEntry_of_ne hkey, h.get?_eq other hother]

/-- What is laid over both sections under another name changes both alike. -/
theorem putAt_name (h : LaidOver group name value root root') (v : Node) {a b : String}
    (way : List Step) (ha : lowered a = group) (hb : lowered b ≠ name) :
    LaidOver group name value (Node.putAt v (.key a :: .key b :: way) root)
      (Node.putAt v (.key a :: .key b :: way) root') := by
  obtain ⟨f, hf⟩ := Node.exists_putAt_eq v b way
  have hnothing : ∀ key, Node.nothing.get? key = none := fun _ => rfl
  -- Both sections have the same below the second key, so the same is put there.
  have hput : ∀ r : Node, Node.putAt v (.key a :: .key b :: way) r =
      r.setEntry group (((r.get? group).getD .nothing).setEntry (lowered b)
        (f (r.under group (lowered b)))) := by
    intro r
    rw [Node.putAt, ha, hf, Node.get?_getD r _ _ (hnothing _)]
  rw [hput, hput, h.under_eq _ hb]
  refine ⟨Node.isTable_setEntry _ _ _, Node.isTable_setEntry _ _ _, ?_, ?_,
    fun other hother => ?_, fun other hother => ?_⟩
  · rw [Node.get?_setEntry_self]
    rintro n ⟨⟩
    exact Node.isTable_setEntry _ _ _
  · rw [Node.under_setEntry_self, Node.get?_setEntry_of_ne (Ne.symm hb),
      Node.get?_getD root' _ _ (hnothing _)]
    exact h.under_self
  · rw [Node.under_setEntry_self, Node.under_setEntry_self]
    by_cases hkey : other = lowered b
    · rw [hkey, Node.get?_setEntry_self, Node.get?_setEntry_self]
    · rw [Node.get?_setEntry_of_ne hkey, Node.get?_setEntry_of_ne hkey,
        Node.get?_getD root' _ _ (hnothing _), Node.get?_getD root _ _ (hnothing _),
        h.under_eq other hother]
  · rw [Node.get?_setEntry_of_ne hother, Node.get?_setEntry_of_ne hother,
      h.get?_eq other hother]

theorem putAt (h : LaidOver group name value root root') (v : Node) {way : List Step}
    (hway : Elsewhere group name way) :
    LaidOver group name value (Node.putAt v way root) (Node.putAt v way root') := by
  cases hway with
  | group ha => exact h.putAt_group v _ ha
  | name ha hb => exact h.putAt_name v _ ha hb

theorem putSource {entries : List (String × Node)} (h : LaidOver group name value root root')
    (hentries : ∀ e ∈ entries, Elsewhere group name (stepsOf e.1)) :
    LaidOver group name value (root.putSource entries) (root'.putSource entries) := by
  induction entries generalizing root root' with
  | nil => exact h
  | cons e entries ih =>
      obtain ⟨he, hrest⟩ := List.forall_mem_cons.1 hentries
      exact ih (h.putAt e.2 he) hrest

/-- A value is laid over a setting. -/
theorem start (hgroup : lowered group = group) (hname : lowered name = name)
    (hvalue : ¬ value.IsTable) (hroot : root.IsTable) :
    LaidOver group name value root (Node.putAt value [.key group, .key name] root) where
  isTable := hroot
  isTable' := Node.isTable_setEntry _ _ _
  section_isTable := by
    rw [Node.putAt, hgroup, Node.get?_setEntry_self]
    rintro n ⟨⟩
    exact Node.isTable_put _ _ _
  under_self := by
    rw [Node.under_putAt hvalue, Node.pairOf?, if_pos hgroup, Node.valueOf?, if_pos hname]
    rfl
  under_eq other hother := by
    have hne : lowered name ≠ other := fun h => hother (h.symm.trans hname)
    rw [Node.under_putAt hvalue, Node.pairOf?, if_pos hgroup, Node.valueOf?, if_neg hne]
    rfl
  get?_eq other hother := by
    rw [Node.putAt, hgroup, Node.get?_setEntry_of_ne hother]

/-- Below the value the setting may have had another one. -/
theorem below (h : LaidOver group name value root root') (hgroup : lowered group = group)
    (hname : lowered name = name) {v : Node} (hv : ¬ v.IsTable) :
    LaidOver group name value (Node.putAt v [.key group, .key name] root) root' where
  isTable := Node.isTable_setEntry _ _ _
  isTable' := h.isTable'
  section_isTable := h.section_isTable
  under_self := h.under_self
  under_eq other hother :=
    (h.under_eq other hother).trans ((start hgroup hname hv h.isTable).under_eq other hother).symm
  get?_eq other hother :=
    (h.get?_eq other hother).trans ((start hgroup hname hv h.isTable).get?_eq other hother).symm

theorem below_all (h : LaidOver group name value root root') (hgroup : lowered group = group)
    (hname : lowered name = name) {key : String} (hkey : stepsOf key = [.key group, .key name])
    {vs : List Node} (hvs : ∀ v ∈ vs, ¬ v.IsTable) :
    LaidOver group name value (root.putSource (vs.map fun v => (key, v))) root' := by
  induction vs generalizing root with
  | nil => exact h
  | cons v vs ih =>
      obtain ⟨hv, hrest⟩ := List.forall_mem_cons.1 hvs
      rw [List.map_cons, Node.putSource, List.foldl_cons, hkey]
      exact ih (h.below hgroup hname hv) hrest

end LaidOver

/-! ### Settings that are texts -/

/-- The settings that are texts. -/
inductive TextSetting where
  | expectedContext
  | extension
  deriving DecidableEq, Repr

namespace TextSetting

def setting : TextSetting → Setting
  | expectedContext => .expectedContext
  | extension => .extension

def get : TextSetting → Settings → String
  | expectedContext, s => s.validation.expectedContext
  | extension, s => s.loader.extension

theorem setting_mem_all (x : TextSetting) : x.setting ∈ Setting.all := by
  cases x <;> simp [setting, Setting.all]

end TextSetting

/-- In a section that is no table nothing is found, and the settings have their defaults. -/
theorem bind_get?_of_not_isTable {n? : Option Node} (h : ¬ ∀ n ∈ n?, n.IsTable) (key : String) :
    n?.bind (·.get? key) = none := by
  cases n? with
  | none => rfl
  | some n => exact Node.get?_of_not_isTable (fun hn => h fun m hm => Option.some.inj hm ▸ hn) key

section Read

variable {n? m? : Option Node} {value : Node} {t : String} (hm : ∀ m ∈ m?, m.IsTable)

include hm

theorem exists_validation_taken {v : ValidationSettings}
    (h : Taken takeValidation "validation" .standard v n?)
    (hself : m?.bind (·.get? "expected_context") = some value)
    (hvalue : takeText "validation.expected_context" value = .ok t)
    (heq : ∀ other, other ≠ "expected_context" →
      m?.bind (·.get? other) = n?.bind (·.get? other)) :
    ∃ v', Taken takeValidation "validation" .standard v' m? ∧ v'.expectedContext = t := by
  have hothers : ∃ check suggest,
      Taken takeFlag "validation.check_emitted_events" true check
        (n?.bind (·.get? "check_emitted_events")) ∧
      Taken takeFlag "validation.suggest_names" true suggest
        (n?.bind (·.get? "suggest_names")) := by
    by_cases hn : ∀ n ∈ n?, n.IsTable
    · obtain ⟨-, hcheck, hsuggest⟩ := (validation_taken hn).1 h
      exact ⟨_, _, hcheck, hsuggest⟩
    · rw [bind_get?_of_not_isTable hn, bind_get?_of_not_isTable hn]
      exact ⟨true, true, rfl, rfl⟩
  obtain ⟨check, suggest, hcheck, hsuggest⟩ := hothers
  refine ⟨⟨t, check, suggest⟩, (validation_taken hm).2 ⟨?_, ?_, ?_⟩, rfl⟩
  · rw [hself]
    exact hvalue
  · rw [heq _ (by decide)]
    exact hcheck
  · rw [heq _ (by decide)]
    exact hsuggest

theorem exists_loader_taken {l : LoaderSettings}
    (h : Taken takeLoader "loader" .standard l n?)
    (hself : m?.bind (·.get? "extension") = some value)
    (hvalue : takeText "loader.extension" value = .ok t)
    (heq : ∀ other, other ≠ "extension" → m?.bind (·.get? other) = n?.bind (·.get? other)) :
    ∃ l', Taken takeLoader "loader" .standard l' m? ∧ l'.extension = t := by
  have hothers : ∃ prefixes, Taken takeTexts "loader.skip_prefixes"
      LoaderSettings.standard.skipPrefixes prefixes (n?.bind (·.get? "skip_prefixes")) := by
    by_cases hn : ∀ n ∈ n?, n.IsTable
    · exact ⟨_, ((loader_taken hn).1 h).1⟩
    · rw [bind_get?_of_not_isTable hn]
      exact ⟨_, rfl⟩
  obtain ⟨prefixes, hprefixes⟩ := hothers
  refine ⟨⟨prefixes, t⟩, (loader_taken hm).2 ⟨?_, ?_⟩, rfl⟩
  · rw [heq _ (by decide)]
    exact hprefixes
  · rw [hself]
    exact hvalue

end Read

/-- A text that is laid over a tree is read, if the tree could be read without it. -/
theorem LaidOver.exists_ofNode {x : TextSetting} {value root root' : Node} {s : Settings}
    {t : String} (h : LaidOver x.setting.group x.setting.name value root root')
    (hvalue : takeText x.setting.key value = .ok t) (hread : ofNode root = .ok s) :
    ∃ s', ofNode root' = .ok s' ∧ x.get s' = t := by
  obtain ⟨hvalidation, hreport, hloader⟩ := (ofNode_eq_ok_iff_sections h.isTable).1 hread
  cases x with
  | expectedContext =>
      obtain ⟨v, hv, hcontext⟩ := exists_validation_taken h.section_isTable hvalidation
        h.under_self hvalue h.under_eq
      refine ⟨⟨v, s.report, s.loader⟩,
        (ofNode_eq_ok_iff_sections h.isTable').2 ⟨hv, ?_, ?_⟩, hcontext⟩
      · rw [h.get?_eq _ (by decide)]
        exact hreport
      · rw [h.get?_eq _ (by decide)]
        exact hloader
  | extension =>
      obtain ⟨l, hl, hextension⟩ := exists_loader_taken h.section_isTable hloader
        h.under_self hvalue h.under_eq
      refine ⟨⟨s.validation, s.report, l⟩,
        (ofNode_eq_ok_iff_sections h.isTable').2 ⟨?_, ?_, hl⟩, hextension⟩
      · rw [h.get?_eq _ (by decide)]
        exact hvalidation
      · rw [h.get?_eq _ (by decide)]
        exact hreport

end DeviceTwin.Settings
