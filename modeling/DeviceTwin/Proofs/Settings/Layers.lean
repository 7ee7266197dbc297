import DeviceTwin.Proofs.Settings.Finding
import DeviceTwin.Proofs.Settings.Hashed
import DeviceTwin.Proofs.Settings.Names
import Mathlib.Data.List.Forall2
import Mathlib.Data.List.Permutation

/-!
# Layers of settings

A source is a layer: it says something about some of the settings. Laid over a tree it changes
just these (`Lays`), so after several sources each setting is what the last one says that says
anything about it (`ofSources_eq_ok_iff`).

What a document says of a setting is the last value for it in the order of the hash tables that
hold the document. Only keys that differ in nothing but capitals make this order matter
(`documentLayer_eq`). Of variables for one setting the last one counts in any case.
-/

namespace DeviceTwin.Settings

open DeviceTwin.Text DeviceTwin.Files

/-- What a source says about each setting, if anything. -/
abbrev Layer := Setting → Option Node

/-- The settings that there are. -/
abbrev Setting.Known := {x : Setting // x ∈ Setting.all}

/-- What stands for a setting in a tree. -/
def Setting.Known.find? (x : Setting.Known) (root : Node) : Option Node :=
  root.under x.1.group x.1.name

/-- Entries laid over a tree of sections give the settings of a layer and leave the others as
they are. -/
def Lays (entries : List (String × Node)) (layer : Layer) : Prop :=
  ∀ root : Node, root.Sectioned → (root.putSource entries).Sectioned ∧
    ∀ x : Setting.Known, x.find? (root.putSource entries) = (layer x.1).or (x.find? root)

theorem lays_nil : Lays [] fun _ => none :=
  fun _ hroot => ⟨hroot, fun _ => rfl⟩

/-- An entry that is a section with a plain key and holds no tables. -/
structure IsSection (e : String × Node) : Prop where
  steps : stepsOf e.1 = [.key e.1]
  table : e.2.IsLeafTable

/-- What sections say about each setting: the last value that they have for it. -/
def sectionsLayer (entries : List (String × Node)) : Layer := fun x =>
  lastSome? (Node.settingOf? x.group x.name) entries

theorem putSource_sections {entries : List (String × Node)} (h : ∀ e ∈ entries, IsSection e)
    (root : Node) : root.putSource entries = Node.putAll root entries := by
  rw [Node.putSource, Node.putAll_eq_foldl]
  refine List.foldl_ext _ _ root fun root e he => ?_
  rw [(h e he).steps, Node.putAt]

theorem lays_sections {entries : List (String × Node)} (h : ∀ e ∈ entries, IsSection e) :
    Lays entries (sectionsLayer entries) := by
  intro root hroot
  have htables : ∀ e ∈ entries, e.2.IsLeafTable := fun e he => (h e he).table
  rw [putSource_sections h]
  exact ⟨hroot.putAll htables, fun x => Node.under_putAll htables x.1.group x.1.name root⟩

theorem IsSection.hashed [HashOrder] {e : String × Node} (h : IsSection e)
    (address : List String) : IsSection (e.1, e.2.hashed address) :=
  ⟨h.steps, h.table.hashed address⟩

/-- No two keys are the same in small letters. -/
def DistinctKeys {α : Type} (entries : List (String × α)) : Prop :=
  (entries.map fun e => lowered e.1).Nodup

theorem DistinctKeys.settingOf?_hashed [HashOrder] {e : String × Node}
    (h : DistinctKeys e.2.entries) (htable : e.2.IsLeafTable) (address : List String)
    (group name : String) :
    Node.settingOf? group name (e.1, e.2.hashed address) = Node.settingOf? group name e := by
  have hperm := (htable.entries_hashed_perm address).symm
  have hone := pairwise_none_or (f := Node.valueOf? name) h fun _ hne => if_neg hne
  rw [Node.settingOf?, Node.settingOf?, lastSome?_perm hperm hone]

/-- If no keys differ in capitals only, the order of a hash table makes no difference. -/
theorem sectionsLayer_hashedSource [HashOrder] {entries : List (String × Node)} (origin : String)
    (hsections : ∀ e ∈ entries, IsSection e) (hkeys : DistinctKeys entries)
    (hinner : ∀ e ∈ entries, DistinctKeys e.2.entries) :
    sectionsLayer (Node.hashedSource origin entries) = sectionsLayer entries := by
  funext x
  have hsame : ∀ e ∈ entries, Node.settingOf? x.group x.name (e.1, e.2.hashed [e.1, origin]) =
      Node.settingOf? x.group x.name e :=
    fun e he => (hinner e he).settingOf?_hashed (hsections e he).table _ _ _
  have hnodup : ((entries.map fun e => (e.1, e.2.hashed [e.1, origin])).map
      fun e => lowered e.1).Nodup := by
    rw [List.map_map]
    exact hkeys
  have hone := pairwise_none_or (f := Node.settingOf? x.group x.name) hnodup
    fun _ hne => if_neg hne
  rw [sectionsLayer, ← lastSome?_perm (Node.hashedSource_perm origin entries).symm hone,
    lastSome?_map]
  exact lastSome?_congr hsame

/-! ### Documents -/

/-- A document of sections under keys that need no quotes, without tables in them. -/
def IsPlain (doc : List (String × Toml.Value)) : Prop :=
  ∀ e ∈ doc, (∀ c ∈ e.1.toList, Toml.isBare c = true) ∧
    ∃ values, e.2 = .table values ∧ ∀ v ∈ values, ∀ inner, v.2 ≠ .table inner

/-- What a document says about each setting. -/
def documentLayer [HashOrder] (origin : String) (doc : List (String × Toml.Value)) : Layer :=
  sectionsLayer (Node.hashedSource origin (Node.ofTomlEntries origin doc))

theorem ofTomlEntries_eq_map (origin : String) (doc : List (String × Toml.Value)) :
    Node.ofTomlEntries origin doc = doc.map fun e => (e.1, Node.ofToml origin e.2) := by
  induction doc with
  | nil => rfl
  | cons e doc ih =>
      obtain ⟨key, value⟩ := e
      rw [Node.ofTomlEntries, ih]
      rfl

theorem isTable_ofToml_iff {origin : String} {v : Toml.Value} :
    (Node.ofToml origin v).IsTable ↔ ∃ entries, v = .table entries := by
  cases v with
  | table entries => exact ⟨fun _ => ⟨entries, rfl⟩, fun _ => ⟨_, _, rfl⟩⟩
  | _ =>
      constructor
      · rintro ⟨_, _, ⟨⟩⟩
      · rintro ⟨_, ⟨⟩⟩

theorem IsPlain.isSection {doc : List (String × Toml.Value)} (h : IsPlain doc)
    (origin : String) : ∀ e ∈ Node.ofTomlEntries origin doc, IsSection e := by
  rw [ofTomlEntries_eq_map]
  refine List.forall_mem_map.2 fun e he => ?_
  obtain ⟨hkey, values, hvalue, hleaf⟩ := h e he
  refine ⟨stepsOf_of_isIdentifier fun c hc => isIdentifier_of_isBare (hkey c hc), origin,
    Node.ofTomlEntries origin values, by rw [hvalue, Node.ofToml], ?_⟩
  rw [ofTomlEntries_eq_map]
  refine List.forall_mem_map.2 fun v hv htable => ?_
  obtain ⟨inner, hinner⟩ := isTable_ofToml_iff.1 htable
  exact hleaf v hv inner hinner

theorem isSection_hashedSource [HashOrder] {entries : List (String × Node)}
    (h : ∀ e ∈ entries, IsSection e) (origin : String) :
    ∀ e ∈ Node.hashedSource origin entries, IsSection e := by
  intro e' he'
  obtain ⟨e, he, rfl⟩ := List.mem_map.1 ((Node.hashedSource_perm origin entries).mem_iff.1 he')
  exact (h e he).hashed _

theorem lays_document [HashOrder] {doc : List (String × Toml.Value)} (h : IsPlain doc)
    (origin : String) :
    Lays (Node.hashedSource origin (Node.ofTomlEntries origin doc)) (documentLayer origin doc) :=
  lays_sections (isSection_hashedSource (h.isSection origin) origin)

/-- No two sections of a document, and no two keys of a section, differ in capitals only. -/
structure HasDistinctKeys (doc : List (String × Toml.Value)) : Prop where
  sections : DistinctKeys doc
  inner : ∀ e ∈ doc, ∀ values, e.2 = .table values → DistinctKeys values

/-- What such a document says is what stands in it, in whatever order it is held. -/
theorem documentLayer_eq [HashOrder] {doc : List (String × Toml.Value)} (h : IsPlain doc)
    (hkeys : HasDistinctKeys doc) (origin : String) :
    documentLayer origin doc = sectionsLayer (Node.ofTomlEntries origin doc) := by
  have hmap : ∀ entries : List (String × Toml.Value), DistinctKeys entries →
      DistinctKeys (Node.ofTomlEntries origin entries) := by
    intro entries hentries
    rw [DistinctKeys, ofTomlEntries_eq_map, List.map_map]
    exact hentries
  refine sectionsLayer_hashedSource origin (h.isSection origin) (hmap doc hkeys.sections) ?_
  rw [ofTomlEntries_eq_map]
  refine List.forall_mem_map.2 fun e he => ?_
  obtain ⟨-, values, hvalue, -⟩ := h e he
  rw [hvalue]
  exact hmap values (hkeys.inner e he values hvalue)

/-! ### Variables -/

/-- Every variable that counts as a setting has a name in capitals, of a section and a
setting. -/
def HasPlainNames (env : Environment) : Prop :=
  ∀ v ∈ env.values, (Environment.settingKey? v.1).isSome = true →
    ∃ group setting, Named v.1 group setting

/-- The value of a setting that a variable gives. -/
def variableOf? (x : Setting) (v : String × String) : Option Node :=
  if v.1 = x.variableName then
    some (.scalar (some "the environment") (Environment.guess v.2))
  else none

def environmentLayer (env : Environment) : Layer := fun x =>
  lastSome? (variableOf? x) env.values

/-- The key of a variable in capitals is the one of a setting if the variable is. -/
theorem Named.eq_key_iff {name : String} {group setting : List Char}
    (h : Named name group setting) {x : Setting} (hx : x ∈ Setting.all) :
    String.ofList (group.map toLower ++ '.' :: setting.map toLower) = x.key ↔
      name = x.variableName := by
  obtain ⟨group', setting', hnamed, hgroup, hsetting⟩ := Setting.exists_named hx
  have hkey : x.key = String.ofList (group'.map toLower ++ '.' :: setting'.map toLower) := by
    rw [Setting.key, ← hgroup, ← hsetting, String.append_assoc, String.ofList_append,
      ← List.singleton_append, String.ofList_append]
  rw [h.eq_variableName_iff hx, ← hgroup, ← hsetting, hkey]
  constructor
  · intro heq
    have hsteps := h.stepsOf_eq
    rw [heq, hnamed.stepsOf_eq] at hsteps
    simpa [eq_comm] using hsteps
  · rintro ⟨hg, hs⟩
    rw [String.ofList_inj.1 hg, String.ofList_inj.1 hs]

/-- A variable gives the settings whose variable it is. -/
theorem entryOf?_setting? {env : Environment} (h : HasPlainNames env) {x : Setting}
    (hx : x ∈ Setting.all) : ∀ v ∈ env.values,
      (Environment.setting? v).bind (entryOf? x.key) = variableOf? x v := by
  rintro ⟨name, value⟩ hv
  cases hkey : Environment.settingKey? name with
  | none =>
      have hne : name ≠ x.variableName := by
        rintro rfl
        obtain ⟨group, setting, hnamed, -⟩ := Setting.exists_named hx
        rw [hnamed.settingKey?_eq] at hkey
        cases hkey
      simp only [Environment.setting?, hkey, Option.map_none, Option.bind_none, variableOf?,
        if_neg hne]
  | some key =>
      obtain ⟨group, setting, hnamed⟩ := h _ hv (by simp [hkey])
      rw [hnamed.settingKey?_eq] at hkey
      obtain rfl := Option.some.inj hkey
      simp only [Environment.setting?, hnamed.settingKey?_eq, Option.map_some, Option.bind_some,
        entryOf?, variableOf?, hnamed.eq_key_iff hx]

/-- A variable in capitals lays its value over the setting that it is for. -/
theorem under_putAt_named {name value : String} {group setting : List Char}
    (h : Named name group setting) {e : String × Node}
    (he : Environment.setting? (name, value) = some e) (root : Node) (x : Setting.Known) :
    x.find? (Node.putAt e.2 (stepsOf e.1) root) = (entryOf? x.1.key e).or (x.find? root) := by
  rw [Environment.setting?, h.settingKey?_eq, Option.map_some] at he
  obtain rfl := Option.some.inj he
  have hpair : ∀ n, Node.pairOf? x.1.group x.1.name
      ((String.ofList (group.map toLower), String.ofList (setting.map toLower)), n) =
        entryOf? x.1.key (String.ofList (group.map toLower ++ '.' :: setting.map toLower), n) := by
    intro n
    simp only [Node.pairOf?, Node.valueOf?, entryOf?, h.group_isCapital.lowered_map_toLower,
      h.setting_isCapital.lowered_map_toLower, h.eq_key_iff x.2, h.eq_variableName_iff x.2]
    split_ifs <;> tauto
  rw [Setting.Known.find?, h.stepsOf_eq, Node.under_putAt (Node.not_isTable_scalar _ _), hpair]
  rfl

theorem lays_environment [HashOrder] {env : Environment} (h : HasPlainNames env) :
    Lays env.settings (environmentLayer env) := by
  intro root hroot
  have hstep : ∀ e ∈ env.settings, ∀ root : Node, root.Sectioned →
      (Node.putAt e.2 (stepsOf e.1) root).Sectioned ∧ ∀ x : Setting.Known,
        x.find? (Node.putAt e.2 (stepsOf e.1) root) = (entryOf? x.1.key e).or (x.find? root) := by
    intro e he root hroot
    obtain ⟨⟨name, value⟩, hv, hset⟩ := mem_values_of_mem_settings he
    obtain ⟨key, hkey, rfl⟩ := Option.map_eq_some_iff.1 hset
    obtain ⟨group, setting, hnamed⟩ := h _ hv (by simp [hkey])
    refine ⟨?_, under_putAt_named hnamed hset root⟩
    rw [hnamed.settingKey?_eq] at hkey
    obtain rfl := Option.some.inj hkey
    rw [hnamed.stepsOf_eq]
    exact hroot.putAt _ _ _
  obtain ⟨hlast, hsaw⟩ := foldl_saw (g := Setting.Known.find?) hstep hroot
  refine ⟨hlast, fun x => (hsaw x).trans ?_⟩
  rw [lastSome?_settings, lastSome?_filterMap, lastSome?_congr (entryOf?_setting? h x.2)]
  rfl

/-! ### All layers -/

theorem lays_all {sources : List (List (String × Node))} {layers : List Layer}
    (h : List.Forall₂ Lays sources layers) {root : Node} (hroot : root.Sectioned) :
    (sources.foldl Node.putSource root).Sectioned ∧
      ∀ x : Setting.Known, x.find? (sources.foldl Node.putSource root) =
        (lastSome? (fun layer => layer x.1) layers).or (x.find? root) := by
  induction h generalizing root with
  | nil => exact ⟨hroot, fun _ => rfl⟩
  | cons hlays hrest ih =>
      obtain ⟨hroot', hfind⟩ := hlays root hroot
      obtain ⟨hlast, hfound⟩ := ih hroot'
      refine ⟨hlast, fun x => ?_⟩
      rw [List.foldl_cons, hfound, hfind, lastSome?_cons, Option.or_assoc]

/-- Each setting is what the last layer says that says anything about it. -/
theorem ofSources_eq_ok_iff {sources : List (List (String × Node))} {layers : List Layer}
    (h : List.Forall₂ Lays sources layers) {s : Settings} :
    Settings.ofSources sources = .ok s ↔
      ∀ x ∈ Setting.all, x.Has s (lastSome? (fun layer => layer x) layers) := by
  obtain ⟨hroot, hfind⟩ := lays_all h Node.sectioned_empty
  rw [Settings.ofSources, ofNode_eq_ok_iff hroot.isTable fun x _ => hroot.sections x.group]
  refine forall₂_congr fun x hx => ?_
  have hx' := hfind ⟨x, hx⟩
  rw [show Setting.Known.find? ⟨x, hx⟩ Node.empty = none from rfl, Option.or_none] at hx'
  rw [← hx']
  rfl

/-- If every place gives entries that lay its layer, the places together give the entries of
all layers. -/
theorem exists_entries {give : String → Except Fault (List (String × Node))}
    {paths : List String} {layers : List Layer}
    (h : List.Forall₂ (fun path layer => ∃ entries, give path = .ok entries ∧ Lays entries layer)
      paths layers) :
    ∃ sources, paths.map give = sources.map .ok ∧ List.Forall₂ Lays sources layers := by
  induction h with
  | nil => exact ⟨[], rfl, .nil⟩
  | cons hfirst _ ih =>
      obtain ⟨entries, hgive, hlays⟩ := hfirst
      obtain ⟨sources, hrest, hall⟩ := ih
      exact ⟨entries :: sources, by rw [List.map_cons, hgive, hrest]; rfl, .cons hlays hall⟩

section Sources

variable [Json.RealReader] [HashOrder] [FormReader] {env : Environment} {d : Disk}

/-- What stands at a place for settings: nothing, or one TOML file, of plain sections. -/
inductive Says (env : Environment) (d : Disk) (path : String) : Layer → Prop
  | nothing (h : fileFor? d path = none) : Says env d path fun _ => none
  | file {found text : String} {doc : List (String × Toml.Value)}
      (hfile : fileFor? d path = some (found, some .toml, text.toUTF8))
      (hdoc : Toml.ofText? text.toList = some doc) (hplain : IsPlain doc) :
      Says env d path (documentLayer (originOf env found) doc)

namespace Says

theorem optional {path : String} {layer : Layer} (h : Says env d path layer) :
    ∃ entries, ((optionalEntries env path).run d).1 = .ok entries ∧ Lays entries layer := by
  rw [run_optionalEntries]
  cases h with
  | nothing h =>
      rw [h]
      exact ⟨[], rfl, lays_nil⟩
  | @file found text doc hfile hdoc hplain =>
      refine ⟨_, ?_, lays_document hplain (originOf env found)⟩
      simp only [hfile, foundSource_text, entries_toml hdoc]

theorem required {path : String} {layer : Layer} (h : Says env d path layer)
    (hsome : (fileFor? d path).isSome = true) :
    ∃ entries, ((requiredEntries env path).run d).1 = .ok entries ∧ Lays entries layer := by
  cases h with
  | nothing h =>
      rw [h] at hsome
      cases hsome
  | @file found text doc hfile hdoc hplain =>
      exact ⟨_, requiredEntries_toml env d hfile hdoc, lays_document hplain (originOf env found)⟩

end Says

/-- Settings are loaded exactly if the file that is asked for is there and each of the seven
settings can be taken from the last source that has it; what the sources before that one have
for it is never looked at. The setting is then what was taken, or its default if no source has
it. -/
theorem load_takes_last_layers {path : Option String} {below asked : List Layer}
    (hbelow : List.Forall₂ (Says env d) (defaultPlaces env d) below)
    (hasked : List.Forall₂ (Says env d) path.toList asked) (henv : HasPlainNames env)
    (s : Settings) :
    ((load env path).run d).1 = .ok s ↔
      (∀ p ∈ path.toList, (fileFor? d p).isSome = true) ∧
      ∀ x ∈ Setting.all,
        x.Has s (lastSome? (fun layer => layer x) (below ++ asked ++ [environmentLayer env])) := by
  obtain ⟨defaults, hdefaults, hlays⟩ :=
    exists_entries (hbelow.imp fun _ _ hsays => hsays.optional)
  have hinj : Function.Injective
      (List.map Except.ok : List (List (String × Node)) → List (Except Fault _)) :=
    List.map_injective_iff.2 fun _ _ => Except.ok.inj
  -- What was asked for gives its entries as soon as its file is there.
  have hrequired : (∀ p ∈ path.toList, (fileFor? d p).isSome = true) → ∃ sources,
      (path.toList.map fun p => ((requiredEntries env p).run d).1) = sources.map .ok ∧
        List.Forall₂ Lays sources asked :=
    fun hsome => exists_entries (((List.forall₂_and_left _ _).2 ⟨hsome, hasked⟩).imp
      fun _ _ h => h.2.required h.1)
  have hread : ∀ sources, List.Forall₂ Lays sources asked →
      (Settings.ofSources (defaults ++ sources ++ [env.settings]) = .ok s ↔
        ∀ x ∈ Setting.all, x.Has s
          (lastSome? (fun layer => layer x) (below ++ asked ++ [environmentLayer env]))) :=
    fun sources hsources => ofSources_eq_ok_iff
      (List.rel_append (List.rel_append hlays hsources) (.cons (lays_environment henv) .nil))
  rw [load_eq_ok_iff_given]
  constructor
  · rintro ⟨defaults', sources', hdefaults', hsources', hs⟩
    have hsome : ∀ p ∈ path.toList, (fileFor? d p).isSome = true := by
      intro p hp
      have hmem : ((requiredEntries env p).run d).1 ∈ sources'.map Except.ok :=
        hsources' ▸ List.mem_map_of_mem hp
      obtain ⟨entries, -, hentries⟩ := List.mem_map.1 hmem
      exact isSome_of_requiredEntries hentries.symm
    obtain ⟨sources, hsources, hall⟩ := hrequired hsome
    obtain rfl := hinj (hdefaults.symm.trans hdefaults')
    obtain rfl := hinj (hsources.symm.trans hsources')
    exact ⟨hsome, (hread sources hall).1 hs⟩
  · rintro ⟨hsome, hhas⟩
    obtain ⟨sources, hsources, hall⟩ := hrequired hsome
    exact ⟨defaults, sources, hdefaults, hsources, (hread sources hall).2 hhas⟩

end Sources

open scoped Concrete

/-- A value that nothing can be made of does no harm below one that something can. -/
theorem load_takes_last_layers_masked :
    ((load ⟨[("TWIN__VALIDATION__SUGGEST_NAMES", "false")], "/"⟩ none).run
      ⟨.directory [("twin.toml", .file "[validation]\nsuggest_names = \"maybe\"\n".toUTF8)],
        []⟩).1 = .ok ⟨⟨Model.standardContext, true, false⟩, .standard, .standard⟩ := by
  let d : Disk :=
    ⟨.directory [("twin.toml", .file "[validation]\nsuggest_names = \"maybe\"\n".toUTF8)], []⟩
  let env : Environment := ⟨[("TWIN__VALIDATION__SUGGEST_NAMES", "false")], "/"⟩
  have hdoc : Toml.ofText? "[validation]\nsuggest_names = \"maybe\"\n".toList =
      some [("validation", .table [("suggest_names", .text "maybe")])] := by
    cbv
  have hplain : IsPlain [("validation", .table [("suggest_names", .text "maybe")])] :=
    List.forall_mem_singleton.2 ⟨List.all_eq_true.1 rfl, _, rfl, by simp⟩
  have hbelow : List.Forall₂ (Says env d) (defaultPlaces env d) [_, _, _] :=
    .cons (.file rfl hdoc hplain) (.cons (.nothing rfl) (.cons (.nothing rfl) .nil))
  have hnames : HasPlainNames env :=
    List.forall_mem_singleton.2 fun _ =>
      ⟨"VALIDATION".toList, "SUGGEST_NAMES".toList, by decide⟩
  have hkeys : HasDistinctKeys [("validation", .table [("suggest_names", .text "maybe")])] :=
    ⟨List.nodup_singleton _, List.forall_mem_singleton.2 fun values hvalue => by
      obtain rfl := Toml.Value.table.inj hvalue
      exact List.nodup_singleton _⟩
  have hlower : lowered "suggest_names" = "suggest_names" := by decide
  refine (load_takes_last_layers hbelow .nil hnames _).2 ⟨by simp, ?_⟩
  generalize originOf env "twin.toml" = origin
  have hflag : Setting.suggestNames.Has
      ⟨⟨Model.standardContext, true, false⟩, .standard, .standard⟩
      (some (.scalar (some "the environment") (.flag false))) := rfl
  have hdefault : ∀ x : Setting, "suggest_names" ≠ x.name →
      "TWIN__VALIDATION__SUGGEST_NAMES" ≠ x.variableName →
      x.get ⟨⟨Model.standardContext, true, false⟩, .standard, .standard⟩ = x.get .standard →
      x.Has ⟨⟨Model.standardContext, true, false⟩, .standard, .standard⟩
        (lastSome? (fun layer : Layer => layer x)
          ([documentLayer origin [("validation", .table [("suggest_names", .text "maybe")])],
            fun _ => none, fun _ => none] ++ [] ++ [environmentLayer env])) := by
    intro x hname hvariable hget
    rw [documentLayer_eq hplain hkeys]
    simpa [Setting.Has, Taken, lastSome?, environmentLayer, variableOf?,
      sectionsLayer, Node.settingOf?, Node.valueOf?, Node.ofTomlEntries, Node.ofToml, Node.entries,
      hlower, hname, hvariable, env] using hget
  simp only [Setting.all, List.forall_mem_cons]
  exact ⟨hdefault .expectedContext (by decide) (by decide) rfl,
    hdefault .checkEmittedEvents (by decide) (by decide) rfl, hflag,
    hdefault .outputFormat (by decide) (by decide) rfl,
    hdefault .showSuggestions (by decide) (by decide) rfl,
    hdefault .skipPrefixes (by decide) (by decide) rfl,
    hdefault .extension (by decide) (by decide) rfl, by simp⟩

end DeviceTwin.Settings
