import DeviceTwin.Proofs.Settings.Guess
import DeviceTwin.Proofs.Settings.Laying

/-!
# Texts that variables set

Of the settings two are texts: the context that is expected and the extension of the files that
are read. The variable of one lays its value over the tree that the files gave, and other
variables that lead elsewhere leave it there (`laidOver_variable`). So if settings can be loaded at
all, with other values of the variable or without it, they can be loaded with any value, and the
setting is the text that the value is delivered as (`load_delivers_text`). This is the value
itself for some values only (`load_delivers_text_changed`).
-/

namespace DeviceTwin.Settings

open DeviceTwin.Text DeviceTwin.Files

/-! ### Variables -/

/-- What the value of a variable lays over the tree. -/
def ofVariable (value : String) : Node :=
  .scalar (some "the environment") (Environment.guess value)

theorem takeText_ofVariable {value t : String} (h : Environment.Delivers value t) (key : String) :
    takeText key (ofVariable value) = .ok t := by
  change ((Environment.guess value).text?.map Except.ok).getD _ = _
  rw [Environment.text?_guess_eq_some_iff.2 h]
  rfl

/-- A variable that is no setting, or leads elsewhere than a setting. -/
def Setting.SparedBy (x : Setting) (name : String) : Prop :=
  ∀ key ∈ Environment.settingKey? name, Elsewhere x.group x.name (stepsOf key)

/-- A variable that is for a setting. -/
def Setting.SetBy (x : Setting) (name : String) : Prop :=
  Environment.settingKey? name = some x.key

theorem Setting.setBy_variableName {x : Setting} (hx : x ∈ Setting.all) :
    x.SetBy x.variableName := by
  obtain ⟨group, setting, hnamed, -⟩ := Setting.exists_named hx
  rw [SetBy, hnamed.settingKey?_eq, (hnamed.eq_key_iff hx).2 rfl]

theorem Setting.stepsOf_key {x : Setting} (hx : x ∈ Setting.all) :
    stepsOf x.key = [.key x.group, .key x.name] := by
  obtain ⟨group, setting, hnamed, hgroup, hsetting⟩ := Setting.exists_named hx
  rw [← (hnamed.eq_key_iff hx).2 rfl, hnamed.stepsOf_eq, hgroup, hsetting]

theorem Setting.SetBy.ne {x : Setting} {name other : String} (h : x.SetBy name)
    (hother : Environment.settingKey? other = none) : name ≠ other := by
  rintro rfl
  cases hother.symm.trans h

/-- The parts of the name of a setting are in small letters. -/
theorem Setting.lowered_eq {x : Setting} (hx : x ∈ Setting.all) :
    lowered x.group = x.group ∧ lowered x.name = x.name := by
  obtain ⟨group, setting, hnamed, hgroup, hsetting⟩ := Setting.exists_named hx
  rw [← hgroup, ← hsetting]
  exact ⟨hnamed.group_isCapital.lowered_map_toLower, hnamed.setting_isCapital.lowered_map_toLower⟩

/-- A variable that leads elsewhere than a setting is not for it. -/
theorem Setting.SparedBy.ne_key {x : Setting} (hx : x ∈ Setting.all) {name key : String}
    (h : x.SparedBy name) (hkey : Environment.settingKey? name = some key) : key ≠ x.key := by
  rintro rfl
  obtain ⟨hgroup, hname⟩ := Setting.lowered_eq hx
  have hway := h _ hkey
  rw [Setting.stepsOf_key hx] at hway
  cases hway with
  | group hne => exact hne hgroup
  | name _ hne => exact hne hname

theorem Setting.SetBy.setting?_eq {x : Setting} {name : String} (h : x.SetBy name)
    (value : String) : Environment.setting? (name, value) = some (x.key, ofVariable value) := by
  rw [Environment.setting?, h]
  rfl

theorem eq_ofVariable {v : String × String} {e : String × Node}
    (h : Environment.setting? v = some e) :
    Environment.settingKey? v.1 = some e.1 ∧ e.2 = ofVariable v.2 := by
  obtain ⟨key, hkey, rfl⟩ := Option.map_eq_some_iff.1 h
  exact ⟨hkey, rfl⟩

/-- What is collected under a key is the value of a variable, if anything is. -/
theorem exists_values_collected (env : Environment) (key : String) :
    ∃ values : List String, (env.collected.get? key).toList = values.map ofVariable := by
  cases hn : env.collected.get? key with
  | none => exact ⟨[], rfl⟩
  | some n =>
      obtain ⟨v, -, hset⟩ :=
        List.mem_filterMap.1 (Table.mem_of_mem_ofList (Table.get?_eq_some_iff.1 hn))
      exact ⟨[v.2], congrArg (· :: []) (eq_ofVariable hset).2⟩

section Load

variable {x : TextSetting} {name : String} {before after : List (String × String)}
  {others : List String} {directory : String}

theorem one_variable (value : String) :
    before ++ [value].map (fun v => (name, v)) ++ after = before ++ (name, value) :: after := by
  rw [List.map_singleton, List.append_assoc, List.singleton_append]

/-- What the variables say under a key. -/
theorem get?_collected (values : List (String × String)) (key : String) :
    (Environment.collected ⟨values, directory⟩).get? key =
      lastSome? (fun v => (Environment.setting? v).bind (entryOf? key)) values := by
  rw [Environment.collected, get?_ofList, lastSome?_filterMap]

/-- Of what the variable of a setting says, nothing is under another key. -/
theorem get?_collected_of_ne (hname : x.setting.SetBy name) (values : List String) {key : String}
    (hne : key ≠ x.setting.key) :
    (Environment.collected ⟨before ++ values.map (fun v => (name, v)) ++ after,
      directory⟩).get? key = (Environment.collected ⟨before ++ after, directory⟩).get? key := by
  have hown : lastSome? (fun v => (Environment.setting? v).bind (entryOf? key))
      (values.map fun v => (name, v)) = none := by
    refine lastSome?_eq_none (List.forall_mem_map.2 fun value _ => ?_)
    rw [hname.setting?_eq, Option.bind_some, entryOf?, if_neg (Ne.symm hne)]
  rw [get?_collected, get?_collected, lastSome?_append, lastSome?_append, hown, Option.none_or,
    lastSome?_append]

theorem get?_collected_self (hname : x.setting.SetBy name)
    (hafter : ∀ v ∈ after, x.setting.SparedBy v.1) (value : String) :
    (Environment.collected ⟨before ++ (name, value) :: after, directory⟩).get? x.setting.key =
      some (ofVariable value) := by
  have hbehind : lastSome? (fun v => (Environment.setting? v).bind (entryOf? x.setting.key))
      after = none := by
    refine lastSome?_eq_none fun v hv => ?_
    cases hset : Environment.setting? v with
    | none => rfl
    | some e =>
        have hne := (hafter v hv).ne_key x.setting_mem_all (eq_ofVariable hset).1
        rw [Option.bind_some, entryOf?, if_neg hne]
  rw [get?_collected, lastSome?_append, lastSome?_cons, hbehind, Option.none_or,
    hname.setting?_eq, Option.bind_some, entryOf?, if_pos rfl, Option.some_or]

/-- Apart from the variable of a text all variables lead elsewhere or are for the text too, and
then what they set is elsewhere or the text. -/
theorem elsewhere_of_mem_settings [HashOrder] {env : Environment}
    (h : ∀ v ∈ env.values, x.setting.SparedBy v.1 ∨ x.setting.SetBy v.1) {e : String × Node}
    (he : e ∈ env.settings) (hne : e.1 ≠ x.setting.key) :
    Elsewhere x.setting.group x.setting.name (stepsOf e.1) := by
  obtain ⟨v, hv, hset⟩ := mem_values_of_mem_settings he
  obtain ⟨hkey, -⟩ := eq_ofVariable hset
  rcases h v hv with hspared | hby
  · exact hspared e.1 hkey
  · exact absurd (Option.some.inj (hkey.symm.trans hby)) hne

/-- The variables with a value for a text, in the order of their hash table, and the same
variables with other values for it or none, in an order of theirs: they can be the same in front
of the text, and the same behind it, where all leads elsewhere. -/
theorem exists_following [HashOrder] (hname : x.setting.SetBy name)
    (hbefore : ∀ v ∈ before, x.setting.SparedBy v.1 ∨ x.setting.SetBy v.1)
    (hafter : ∀ v ∈ after, x.setting.SparedBy v.1) (value : String) :
    ∃ (names : List String) (front : List (String × Node)) (vs : List String)
      (back : List (String × Node)),
      Environment.settings ⟨before ++ (name, value) :: after, directory⟩ =
        front ++ (x.setting.key, ofVariable value) :: back ∧
      @Environment.settings (following names)
          ⟨before ++ others.map (fun v => (name, v)) ++ after, directory⟩ =
        front ++ vs.map (fun v => (x.setting.key, ofVariable v)) ++ back ∧
      ∀ e ∈ back, Elsewhere x.setting.group x.setting.name (stepsOf e.1) := by
  let env : Environment := ⟨before ++ (name, value) :: after, directory⟩
  let env' : Environment := ⟨before ++ others.map (fun v => (name, v)) ++ after, directory⟩
  have hsame : ∀ key, key ≠ x.setting.key → env'.collected.get? key = env.collected.get? key := by
    intro key hne
    have hone : (Environment.collected ⟨before ++ [value].map (fun v => (name, v)) ++ after,
        directory⟩).get? key = (Environment.collected ⟨before ++ after, directory⟩).get? key :=
      get?_collected_of_ne hname [value] hne
    rw [one_variable] at hone
    exact (get?_collected_of_ne hname others hne).trans hone.symm
  obtain ⟨names, front, back, hsettings, hback, hsettings'⟩ :=
    exists_settings_following (get?_collected_self hname hafter value) hsame
  obtain ⟨vs, hvs⟩ := exists_values_collected env' x.setting.key
  rw [hvs, List.map_map] at hsettings'
  have hall : ∀ v ∈ env.values, x.setting.SparedBy v.1 ∨ x.setting.SetBy v.1 :=
    List.forall_mem_append.2 ⟨hbefore, List.forall_mem_cons.2
      ⟨.inr hname, fun v hv => .inl (hafter v hv)⟩⟩
  refine ⟨names, front, vs, back, hsettings, hsettings', fun e he => ?_⟩
  refine elsewhere_of_mem_settings hall ?_ (hback e he)
  rw [hsettings]
  exact List.mem_append_right _ (List.mem_cons_of_mem _ he)

/-- The variable of a text lays its value over the tree, whatever value it may have had. -/
theorem laidOver_variable {base : Node} (hbase : base.IsTable) (value : String)
    (front back : List (String × Node)) (vs : List String)
    (hback : ∀ e ∈ back, Elsewhere x.setting.group x.setting.name (stepsOf e.1)) :
    LaidOver x.setting.group x.setting.name (ofVariable value)
      (base.putSource (front ++ (vs.map fun v => (x.setting.key, ofVariable v)) ++ back))
      (base.putSource (front ++ (x.setting.key, ofVariable value) :: back)) := by
  obtain ⟨hgroup, hsetting⟩ := Setting.lowered_eq x.setting_mem_all
  have hscalar : ∀ v, ¬ (ofVariable v).IsTable := fun v => Node.not_isTable_scalar _ _
  have hsteps := Setting.stepsOf_key x.setting_mem_all
  have hfront := Node.isTable_putSource hbase front
  have hstart := LaidOver.start hgroup hsetting (hscalar value) hfront
  have hbelow := hstart.below_all hgroup hsetting hsteps
    (List.forall_mem_map.2 fun v _ => hscalar v : ∀ v ∈ vs.map ofVariable, ¬ v.IsTable)
  rw [← hsteps, List.map_map] at hbelow
  rw [← List.singleton_append, ← List.append_assoc, Node.putSource_append, Node.putSource_append,
    Node.putSource_append _ _ back, Node.putSource_append]
  exact hbelow.putSource hback

/-- Variables of settings have no part in where files are looked for. -/
theorem configHome?_eq (hname : x.setting.SetBy name) (values : List String) :
    Environment.configHome? ⟨before ++ values.map (fun v => (name, v)) ++ after, directory⟩ =
      Environment.configHome? ⟨before ++ after, directory⟩ := by
  have hget : ∀ other : String, name ≠ other →
      Environment.get? ⟨before ++ values.map (fun v => (name, v)) ++ after, directory⟩ other =
        Environment.get? ⟨before ++ after, directory⟩ other := by
    intro other hother
    have hnone : (values.map fun v => (name, v)).find? (fun e => e.1 == other) = none := by
      simp [hother]
    simp only [Environment.get?, lookupEntry, List.find?_append, hnone, Option.or_none]
  rw [Environment.configHome?, Environment.configHome?, hget _ (hname.ne (by decide)),
    hget _ (hname.ne (by decide))]

section Sources

variable [HashOrder]

/-- Files are read in the order of their own tables. -/
theorem find_following (names : List String) (env : Environment) (path : String) :
    @find (following names) env path = find env path := by
  have hextended : @extended (following names) path = extended path := by
    change ((following names).order ["file forms"] FileForm.all).flatMap _ = _
    rw [order_following (List.cons_ne_nil _ _)]
    rfl
  unfold find
  rw [hextended]

variable [Json.RealReader] [FormReader]

theorem entries_following (names : List String) (source : Source) :
    @Source.entries _ (following names) _ source = source.entries := by
  unfold Source.entries
  simp only [Node.hashedSource_following]

theorem optionalEntries_following (names : List String) (env : Environment) (path : String) :
    @optionalEntries _ (following names) _ env path = optionalEntries env path := by
  unfold optionalEntries
  simp only [find_following, entries_following]

theorem requiredEntries_following (names : List String) (env : Environment) (path : String) :
    @requiredEntries _ (following names) _ env path = requiredEntries env path := by
  unfold requiredEntries
  simp only [find_following, entries_following]

/-- What files say does not depend on variables, apart from where they are looked for, nor on
the order of the variables. -/
theorem load_following_eq_ok_iff {values values' : List (String × String)} (d : Disk)
    {path : Option String} {s : Settings} (names : List String)
    (h : Environment.configHome? ⟨values', directory⟩ =
      Environment.configHome? ⟨values, directory⟩) :
    ((@load _ (following names) _ ⟨values', directory⟩ path).run d).1 = .ok s ↔
      ∃ below asked,
        (defaultPlaces ⟨values, directory⟩ d).map
            (fun place => ((optionalEntries ⟨values, directory⟩ place).run d).1) =
          below.map .ok ∧
        (path.toList.map fun path => ((requiredEntries ⟨values, directory⟩ path).run d).1) =
          asked.map .ok ∧
        ofSources (below ++ asked ++
          [@Environment.settings (following names) ⟨values', directory⟩]) = .ok s := by
  have hplaces : defaultPlaces ⟨values', directory⟩ d = defaultPlaces ⟨values, directory⟩ d := by
    rw [defaultPlaces, defaultPlaces, userPath?, userPath?, userPlace?, userPlace?, h]
  rw [@load_eq_ok_iff_given (following names) _ _, hplaces]
  simp only [optionalEntries_following, requiredEntries_following]
  rfl

/-- Loading again with another value of the variable of a text gives that value. -/
theorem exists_load (hname : x.setting.SetBy name) {value t : String} {path : Option String}
    {d : Disk} (hdelivers : Environment.Delivers value t)
    (hbefore : ∀ v ∈ before, x.setting.SparedBy v.1 ∨ x.setting.SetBy v.1)
    (hafter : ∀ v ∈ after, x.setting.SparedBy v.1)
    (hload : ∀ order : HashOrder, ∃ s, ((@load _ order _
      ⟨before ++ others.map (fun v => (name, v)) ++ after, directory⟩ path).run d).1 = .ok s) :
    ∃ s', (load ⟨before ++ (name, value) :: after, directory⟩ path).run d = (.ok s', d) ∧
      x.get s' = t := by
  have hhome : Environment.configHome?
        ⟨before ++ others.map (fun v => (name, v)) ++ after, directory⟩ =
      Environment.configHome? ⟨before ++ (name, value) :: after, directory⟩ := by
    rw [← one_variable value]
    exact (configHome?_eq hname others).trans (configHome?_eq hname [value]).symm
  obtain ⟨names, front, vs, back, hsettings, hsettings', hback⟩ :=
    @exists_following x name before after others directory _ hname hbefore hafter value
  -- In the order that agrees with the given one, the settings can be loaded without the value.
  obtain ⟨s, hs⟩ := hload (following names)
  obtain ⟨below, asked, hbelow, hasked, hread⟩ := (load_following_eq_ok_iff d names hhome).1 hs
  rw [ofSources, List.foldl_append, hsettings'] at hread
  have hbase : ((below ++ asked).foldl Node.putSource .empty).IsTable := by
    generalize below ++ asked = sources
    exact List.foldlRecOn sources Node.putSource (Node.isTable_table none [])
      fun _ h entries _ => Node.isTable_putSource h entries
  obtain ⟨s', hs', hget⟩ := (laidOver_variable hbase value front back vs hback).exists_ofNode
    (takeText_ofVariable hdelivers x.setting.key) hread
  refine ⟨s', ?_, hget⟩
  rw [Plan.run_eq_of_readOnly (readOnly_load _ path)]
  refine congrArg (·, d) ((load_eq_ok_iff_given _ d).2 ⟨below, asked, hbelow, hasked, ?_⟩)
  rw [ofSources, List.foldl_append, hsettings]
  exact hs'

/-- **Texts in variables.** If settings can be loaded with other values of the variable of a text
in the place of its value, or without it, in whatever order hash tables give their entries, then
they can be loaded with the value, whatever it is and whatever the files say of the text. The
setting is then the text that the value is delivered as, and this is the value itself exactly for
those values that arrive as they are. Other variables may be about anything but this setting, its
section as a whole, or something below it; before the variable there may be others for the
setting. -/
theorem load_delivers_text (x : TextSetting) (value : String) {path : Option String} {d : Disk}
    (hbefore : ∀ v ∈ before, x.setting.SparedBy v.1 ∨ x.setting.SetBy v.1)
    (hafter : ∀ v ∈ after, x.setting.SparedBy v.1)
    (hload : ∀ order : HashOrder, ∃ s, ((@load _ order _
      ⟨before ++ others.map (fun v => (x.setting.variableName, v)) ++ after,
        directory⟩ path).run d).1 = .ok s) :
    ∃ s', (load ⟨before ++ (x.setting.variableName, value) :: after, directory⟩ path).run d =
        (.ok s', d) ∧
      Environment.Delivers value (x.get s') ∧
      (x.get s' = value ↔ Environment.Verbatim value) := by
  obtain ⟨t, hdelivers⟩ := Environment.exists_delivers value
  obtain ⟨s', hs', rfl⟩ :=
    exists_load (Setting.setBy_variableName x.setting_mem_all) hdelivers hbefore hafter hload
  exact ⟨s', hs', hdelivers, hdelivers.eq_iff⟩

end Sources

end Load

/-! ### Runs without files -/

section NoFiles

variable [HashOrder]

/-- No file is found for a path if there is none at it or behind one of the extensions. -/
theorem fileFor?_eq_none {d : Disk} {path : String} (h : d.contentAt? path = none ∧
    ∀ f ∈ FileForm.all, ∀ ext ∈ f.2.extensions,
      (Path.withSuffix? path ("." ++ ext)).bind d.contentAt? = none) :
    fileFor? d path = none := by
  rw [fileFor?, List.findSome?_eq_none_iff]
  intro c hc
  rcases List.mem_cons.1 hc with rfl | hc
  · rw [h.1, Option.map_none]
  · obtain ⟨⟨other, form⟩, hextended, rfl⟩ := List.mem_map.1 hc
    obtain ⟨f, hf, hform⟩ := List.mem_flatMap.1 hextended
    obtain ⟨ext, hmem, hsuffix⟩ := List.mem_filterMap.1 hform
    obtain ⟨other', hother, heq⟩ := Option.map_eq_some_iff.1 hsuffix
    obtain ⟨rfl, rfl⟩ := Prod.mk.inj heq
    have hnone := h.2 f ((HashOrder.perm _ _).mem_iff.1 hf) ext hmem
    rw [hother, Option.bind_some] at hnone
    rw [hnone, Option.map_none]

variable [Json.RealReader] [FormReader]

/-- Without files at the default places, and without variables, only the file that is asked for
counts. -/
theorem load_of_no_default {env : Environment} {d : Disk}
    (hplaces : ∀ place ∈ defaultPlaces env d, fileFor? d place = none)
    (henv : ∀ v ∈ env.values, Environment.settingKey? v.1 = none) {path : Option String}
    {asked : List (List (String × Node))} {s : Settings}
    (hasked : (path.toList.map fun path => ((requiredEntries env path).run d).1) = asked.map .ok)
    (h : ofSources asked = .ok s) : ((load env path).run d).1 = .ok s := by
  have hnothing : ∀ place ∈ defaultPlaces env d,
      ((optionalEntries env place).run d).1 = .ok [] := by
    intro place hplace
    rw [run_optionalEntries, hplaces place hplace]
    rfl
  refine (load_eq_ok_iff_given env d).2
    ⟨(defaultPlaces env d).map fun _ => [], asked, ?_, hasked, ?_⟩
  · rw [List.map_map]
    exact List.map_congr_left hnothing
  · have hempty : ∀ ps : List String,
        (ps.map fun _ => []).foldl Node.putSource .empty = .empty := by
      intro ps
      induction ps with
      | nil => rfl
      | cons p ps ih => exact ih
    rw [ofSources, settings_eq_nil henv, List.foldl_append, List.foldl_append, hempty]
    exact h

end NoFiles

open scoped Concrete

/-- A context of one's own goes over the one in a file. -/
theorem load_delivers_text_over_file :
    let text := "[validation]\nexpected_context = \"dtmi:old;1\"\n"
    let d : Disk := ⟨.directory [("mine.toml", .file text.toUTF8)], []⟩
    let env : Environment :=
      ⟨[("TWIN__VALIDATION__EXPECTED_CONTEXT", "dtmi:new;1"), ("SHELL", "/bin/sh")], "/"⟩
    ((load ⟨[("SHELL", "/bin/sh")], "/"⟩ (some "mine.toml")).run d).1 =
        .ok ⟨⟨"dtmi:old;1", true, true⟩, .standard, .standard⟩ ∧
      ∃ s, (load env (some "mine.toml")).run d = (.ok s, d) ∧
        s.validation.expectedContext = "dtmi:new;1" := by
  intro text d env
  have hdoc : Toml.ofText? "[validation]\nexpected_context = \"dtmi:old;1\"\n".toList =
      some [("validation", .table [("expected_context", .text "dtmi:old;1")])] := by
    cbv
  have hshell : Environment.settingKey? "SHELL" = none := by decide
  let shell : Environment := ⟨[("SHELL", "/bin/sh")], "/"⟩
  have hplaces : ∀ order : HashOrder, ∀ place ∈ defaultPlaces shell d,
      @fileFor? order d place = none := by
    intro order place hplace
    refine fileFor?_eq_none ?_
    revert place
    decide
  have hload : ∀ order : HashOrder, ((@load _ order _ shell (some "mine.toml")).run d).1 =
      .ok ⟨⟨"dtmi:old;1", true, true⟩, .standard, .standard⟩ := by
    intro order
    have hread := @requiredEntries_toml order shell d _ _ "mine.toml" "mine.toml" text _ rfl hdoc
    refine @load_of_no_default order _ _ shell d (hplaces order)
      (List.forall_mem_singleton.2 hshell) (some "mine.toml") [_] _ (congrArg (· :: []) hread) ?_
    have hsteps : stepsOf "validation" = [.key "validation"] := rfl
    simp only [Node.ofTomlEntries, Node.ofToml, Node.hashedSource, Node.hashedEntries,
      Node.hashed, order_singleton, ofSources, Node.putSource, List.foldl_cons, List.foldl_nil,
      hsteps]
    rfl
  have hspared : ∀ v ∈ [("SHELL", "/bin/sh")],
      TextSetting.expectedContext.setting.SparedBy v.1 := by
    refine List.forall_mem_singleton.2 fun key hmem => ?_
    rw [hshell] at hmem
    cases hmem
  obtain ⟨s, hs, -, hverbatim⟩ := @load_delivers_text [] [("SHELL", "/bin/sh")] [] "/" _ _ _
    .expectedContext "dtmi:new;1" (some "mine.toml") d (by simp) hspared
    fun order => ⟨_, hload order⟩
  have hflag : ∀ b, lowered "dtmi:new;1" ≠ shownFlag b := by decide
  exact ⟨hload _, s, hs, hverbatim.2 (.text hflag (by decide) (by decide))⟩

/-- A value that is taken for a number does not arrive as it is, nor does any other if the
variable is there once more, in other letters. -/
theorem load_delivers_text_changed :
    let d : Disk := ⟨.directory [], []⟩
    (∃ s, (load ⟨[("TWIN__VALIDATION__EXPECTED_CONTEXT", "007")], "/"⟩ none).run d = (.ok s, d) ∧
      s.validation.expectedContext = "7") ∧
    ∃ s, (load ⟨[("TWIN__VALIDATION__EXPECTED_CONTEXT", "dtmi:new;1"),
        ("twin__validation__expected_context", "dtmi:other;1")], "/"⟩ none).run d = (.ok s, d) ∧
      s.validation.expectedContext = "dtmi:other;1" := by
  intro d
  have hplaces : ∀ order : HashOrder, ∀ place ∈ defaultPlaces ⟨[], "/"⟩ d,
      @fileFor? order d place = none := by
    intro order place hplace
    refine fileFor?_eq_none ?_
    revert place
    decide
  have hload : ∀ order : HashOrder, ∃ s, ((@load _ order _ ⟨[], "/"⟩ none).run d).1 = .ok s := by
    intro order
    have hempty : ofSources [] = .ok .standard := rfl
    exact ⟨_, load_of_no_default (hplaces order) (by simp) rfl hempty⟩
  have hname : TextSetting.expectedContext.setting.SetBy "TWIN__VALIDATION__EXPECTED_CONTEXT" :=
    Setting.setBy_variableName TextSetting.expectedContext.setting_mem_all
  have hsmall : TextSetting.expectedContext.setting.SetBy "twin__validation__expected_context" := by
    have hkey : Environment.settingKey? "twin__validation__expected_context" =
        some "validation.expected_context" := by decide
    exact hkey
  have hnumber : Environment.Delivers "007" (toString (7 : Int)) :=
    .integer (by decide) (by decide)
  have htext : ∀ value ∈ ["dtmi:new;1", "dtmi:other;1"], Environment.Delivers value value := by
    simp only [List.forall_mem_cons]
    exact ⟨.text (by decide) (by decide) (by decide), .text (by decide) (by decide) (by decide),
      by simp⟩
  constructor
  · exact @exists_load .expectedContext _ [] [] [] "/" _ _ _ hname _ _ none d hnumber (by simp)
      (by simp) hload
  · have hone : ∀ order : HashOrder, ∃ s, ((@load _ order _
        ⟨[("TWIN__VALIDATION__EXPECTED_CONTEXT", "dtmi:new;1")], "/"⟩ none).run d).1 = .ok s := by
      intro order
      obtain ⟨s, hs, -⟩ := @exists_load .expectedContext _ [] [] [] "/" order _ _ hname _ _ none d
        (htext "dtmi:new;1" (by simp)) (by simp) (by simp) hload
      exact ⟨s, congrArg Prod.fst hs⟩
    exact @exists_load .expectedContext _ [("TWIN__VALIDATION__EXPECTED_CONTEXT", "dtmi:new;1")]
      [] [] "/" _ _ _ hsmall _ _ none d (htext "dtmi:other;1" (by simp))
      (List.forall_mem_singleton.2 (.inr hname)) (by simp) hone

end DeviceTwin.Settings
