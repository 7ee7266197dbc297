import DeviceTwin.Proofs.Files.Naming
import DeviceTwin.Proofs.Settings.Layers
import DeviceTwin.Proofs.Toml.Sections
import DeviceTwin.Settings.Saving
import Mathlib.Data.Set.List

/-!
# Saved settings are loaded again

A document of settings says something about each of the seven settings, so laid over any tree it
gives back the settings that it was written from (`ofNode_putSource_written`): lists are
replaced, and defaults are written too. A file that is saved changes none of the other files
that settings are looked for in, so these can be read afterwards if they could before.
-/

namespace DeviceTwin

namespace Settings

open DeviceTwin.Text DeviceTwin.Files

/-! ### The document -/

/-- The keys of a settings document. -/
def documentKeys : List String :=
  ["validation", "expected_context", "check_emitted_events", "suggest_names", "report",
    "output_format", "show_suggestions", "loader", "skip_prefixes", "extension"]

theorem isBareKey_documentKeys : ∀ key ∈ documentKeys, Toml.IsBareKey key := by
  decide

theorem lowered_documentKeys : ∀ key ∈ documentKeys, lowered key = key := by
  decide

theorem isPlain_sections (s : Settings) : ∀ x ∈ s.sections, x.IsPlain := by
  have hbare := isBareKey_documentKeys
  simp only [documentKeys, List.forall_mem_cons] at hbare
  simp only [sections, List.forall_mem_cons]
  refine ⟨⟨hbare.1, ?_, ?_⟩, ⟨hbare.2.2.2.2.1, ?_, ?_⟩, ⟨hbare.2.2.2.2.2.2.2.1, ?_, ?_⟩, ?_⟩ <;>
    simp [hbare]

theorem ofText?_written (s : Settings) :
    Toml.ofText? s.written.toList = some (s.sections.map Toml.Section.content) :=
  Toml.ofText?_written (isPlain_sections s) (by simp [sections])

theorem isPlain_content {sections : List Toml.Section} (h : ∀ x ∈ sections, x.IsPlain) :
    IsPlain (sections.map Toml.Section.content) := by
  refine List.forall_mem_map.2 fun x hx => ⟨List.all_eq_true.1 (h x hx).name.all, _, rfl, ?_⟩
  refine List.forall_mem_map.2 fun e _ inner => ?_
  cases e.2 <;> exact Toml.Value.noConfusion

/-- No keys of a settings document differ in capitals only. -/
theorem hasDistinctKeys_written (s : Settings) :
    HasDistinctKeys (s.sections.map Toml.Section.content) := by
  have hlower := lowered_documentKeys
  simp only [documentKeys, List.forall_mem_cons] at hlower
  refine ⟨by simp [DistinctKeys, sections, Toml.Section.content, hlower], ?_⟩
  refine List.forall_mem_map.2 fun x hx values hvalues => ?_
  obtain rfl := Toml.Value.table.inj hvalues
  revert x
  simp [DistinctKeys, sections, hlower]

/-! ### The tree -/

theorem takeTexts_written (key origin : String) (ss : List String) :
    takeTexts key (Node.ofToml origin (.list (ss.map .text))) = .ok ss := by
  have hitems : ∀ n, ((Node.ofTomlItems origin (ss.map .text)).zipIdx n).mapM
      (fun p => takeText (itemKey key p.2) p.1) = .ok ss := by
    induction ss with
    | nil => exact fun _ => rfl
    | cons s ss ih =>
        intro n
        rw [List.map_cons, Node.ofTomlItems, List.zipIdx_cons, List.mapM_cons, ih]
        rfl
  exact hitems 0

theorem takeFormat_written (key origin : String) (f : OutputFormat) :
    takeFormat key (Node.ofToml origin (.text f.word)) = .ok f := by
  have hlower : lowered f.word = f.word := by cases f <;> decide
  have hfind : [OutputFormat.pretty, .compact].find? (fun g => g.word = f.word) = some f := by
    cases f <;> decide
  simp only [takeFormat, Node.ofToml, word?, hlower, hfind]

section Tree

variable [HashOrder]

/-- The document of settings says of each setting what it is. -/
theorem layer_written (s : Settings) (origin : String) : ∀ x ∈ Setting.all,
    ∃ n, documentLayer origin (s.sections.map Toml.Section.content) x = some n ∧
      x.taking x.key n = .ok (x.get s) := by
  have hlower := lowered_documentKeys
  simp only [documentKeys, List.forall_mem_cons] at hlower
  have hformat := takeFormat_written "report.output_format" origin s.report.outputFormat
  have hprefixes := takeTexts_written "loader.skip_prefixes" origin s.loader.skipPrefixes
  rw [documentLayer_eq (isPlain_content (isPlain_sections s)) (hasDistinctKeys_written s)]
  simp only [Setting.all, List.forall_mem_cons]
  refine ⟨⟨Node.ofToml origin (.text s.validation.expectedContext), ?_, rfl⟩,
    ⟨Node.ofToml origin (.flag s.validation.checkEmittedEvents), ?_, rfl⟩,
    ⟨Node.ofToml origin (.flag s.validation.suggestNames), ?_, rfl⟩,
    ⟨Node.ofToml origin (.text s.report.outputFormat.word), ?_, hformat⟩,
    ⟨Node.ofToml origin (.flag s.report.showSuggestions), ?_, rfl⟩,
    ⟨Node.ofToml origin (.list (s.loader.skipPrefixes.map .text)), ?_, hprefixes⟩,
    ⟨Node.ofToml origin (.text s.loader.extension), ?_, rfl⟩, by simp⟩ <;>
  simp [sections, Toml.Section.content, Toml.Plain.value, Node.ofTomlEntries, Node.ofToml,
    sectionsLayer, lastSome?, Node.settingOf?, Node.valueOf?, Node.entries, hlower,
    Setting.expectedContext, Setting.checkEmittedEvents, Setting.suggestNames,
    Setting.outputFormat, Setting.showSuggestions, Setting.skipPrefixes, Setting.extension]

/-- What is written of settings, as entries of a tree. -/
def writtenEntries (s : Settings) (origin : String) : List (String × Node) :=
  Node.hashedSource origin
    (Node.ofTomlEntries origin (s.sections.map Toml.Section.content))

theorem isSection_written (s : Settings) (origin : String) :
    ∀ e ∈ s.writtenEntries origin, IsSection e :=
  isSection_hashedSource ((isPlain_content (isPlain_sections s)).isSection origin) origin

theorem entries_written_ne_nil (s : Settings) (origin : String) :
    ∀ e ∈ s.writtenEntries origin, e.2.entries ≠ [] := by
  have hsections := (isPlain_content (isPlain_sections s)).isSection origin
  have hentries : ∀ x ∈ s.sections, x.entries ≠ [] := by simp [sections]
  intro e' he'
  obtain ⟨e, he, rfl⟩ := List.mem_map.1 ((Node.hashedSource_perm origin _).mem_iff.1 he')
  have hperm := (hsections e he).table.entries_hashed_perm [e.1, origin]
  change (e.2.hashed [e.1, origin]).entries ≠ []
  rw [Ne, ← List.length_eq_zero_iff, hperm.length_eq, List.length_eq_zero_iff]
  rw [ofTomlEntries_eq_map, List.map_map] at he
  obtain ⟨x, hx, rfl⟩ := List.mem_map.1 he
  simpa [Toml.Section.content, Node.ofToml, Node.entries, ofTomlEntries_eq_map]
    using hentries x hx

/-- Each section of the document is a table afterwards, also where there was something else. -/
theorem isTable_get?_written (s : Settings) (origin : String) (root : Node) {x : Setting}
    (hx : x ∈ Setting.all) :
    ∀ n ∈ (root.putAll (s.writtenEntries origin)).get? x.group, n.IsTable := by
  obtain ⟨n, hlayer, -⟩ := layer_written s origin x hx
  obtain ⟨e, he, hsays⟩ := List.exists_of_findSome?_eq_some hlayer
  rw [Node.settingOf?, Option.ite_none_right_eq_some] at hsays
  refine Node.isTable_get?_putAll (fun e he => ?_) (.inr ⟨e, List.mem_reverse.1 he, hsays.1⟩)
  obtain ⟨table, values, hvalue, -⟩ := (isSection_written s origin e he).table
  have hne := entries_written_ne_nil s origin e he
  rw [hvalue] at hne
  obtain ⟨v, values, rfl⟩ := List.exists_cons_of_ne_nil hne
  exact ⟨table, v, values, hvalue⟩

/-- What is written of settings gives them back, whatever it is laid over. -/
theorem ofNode_putSource_written (s : Settings) (origin : String) (root : Node) :
    ofNode (root.putSource (s.writtenEntries origin)) = .ok s := by
  have hsections := isSection_written s origin
  have hroot : (root.putAll (s.writtenEntries origin)).IsTable := by
    obtain ⟨e, es, heq⟩ : ∃ e es, s.writtenEntries origin = e :: es := by
      refine List.exists_cons_of_ne_nil fun hnil => ?_
      have hlength := (Node.hashedSource_perm origin
        (Node.ofTomlEntries origin (s.sections.map Toml.Section.content))).length_eq
      rw [show Node.hashedSource _ _ = [] from hnil] at hlength
      cases hlength
    rw [heq]
    exact Node.isTable_putAll (Node.isTable_put _ _ _) _
  rw [putSource_sections hsections,
    ofNode_eq_ok_iff hroot fun x hx => isTable_get?_written s origin root hx]
  intro x hx
  obtain ⟨n, hlayer, htaken⟩ := layer_written s origin x hx
  -- Nothing of the tree below is left, as the document says something of every setting.
  rw [Node.under_putAll fun e he => (hsections e he).table,
    show lastSome? _ (s.writtenEntries origin) = some n from hlayer]
  exact htaken

end Tree

/-! ### The disk -/

/-- What is seen of each of several paths stays, or is something of a kind; then so it is with
what is seen first. -/
theorem findSome?_eq_or {α β : Type} {f g : α → Option β} {P : β → Prop} {as : List α}
    (h : ∀ a ∈ as, g a = f a ∨ ∃ b, g a = some b ∧ P b) :
    as.findSome? g = as.findSome? f ∨ ∃ b, as.findSome? g = some b ∧ P b := by
  induction as with
  | nil => exact .inl rfl
  | cons a as ih =>
      obtain ⟨hfirst, hrest⟩ := List.forall_mem_cons.1 h
      rw [List.findSome?_cons, List.findSome?_cons]
      rcases hfirst with heq | ⟨b, hb, hP⟩
      · rw [heq]
        cases f a with
        | none => exact ih hrest
        | some b => exact .inl rfl
      · rw [hb]
        exact .inr ⟨b, rfl, hP⟩

namespace FileForm

theorem ofPath?_eq_some_iff {path : String} {form : FileForm} :
    ofPath? path = some form ↔
      ∃ ext ∈ form.extensions, (Path.name? path).bind Path.extension? = some ext := by
  constructor
  · intro h
    obtain ⟨f, hfound, rfl⟩ := Option.map_eq_some_iff.1 h
    have hsome := List.find?_some hfound
    cases hext : (Path.name? path).bind Path.extension? with
    | none => simp [hext] at hsome
    | some ext =>
        rw [hext, Option.any_some] at hsome
        exact ⟨ext, List.contains_iff_mem.1 hsome, rfl⟩
  · rintro ⟨ext, hmem, hext⟩
    have hfound : ∀ ext ∈ form.extensions,
        (all.find? fun f => (some ext).any f.2.extensions.contains).map Prod.snd =
          some form := by
      cases form <;> decide
    rw [ofPath?, hext]
    exact hfound ext hmem

/-- What stands behind a path to make it one of a form. -/
theorem suffix_of_mem_extensions (form : FileForm) : ∀ ext ∈ form.extensions,
    '/' ∉ ("." ++ ext).toList ∧ 2 < ("." ++ ext).length ∧ '.' ∉ ext.toList ∧ ext ≠ "" := by
  cases form <;> decide

end FileForm

section Save

variable {env : Environment} {d d' : Disk} {path text : String}

theorem run_save :
    (Plan.save path text).run d = (.ok (), d') ↔ d.write path text = .ok d' := by
  rw [Plan.save, Plan.run]
  cases hwrite : d.write path text with
  | ok d'' => simp
  | error o => simp

/-- A path whose name is the one of another path has its form, if it has any. -/
theorem ofPath?_eq_of_name {other : String} {form : FileForm}
    (hform : FileForm.ofPath? path = some form)
    (hname : ∀ n, Path.name? other = some n → Path.name? path = some n) :
    ∀ f ∈ FileForm.ofPath? other, f = form := by
  intro f hf
  obtain ⟨ext, hmem, hext⟩ := FileForm.ofPath?_eq_some_iff.1 hf
  obtain ⟨n, hn, -⟩ := Option.bind_eq_some_iff.1 hext
  have hother : FileForm.ofPath? path = some f := by
    refine FileForm.ofPath?_eq_some_iff.2 ⟨ext, hmem, ?_⟩
    rw [hname n hn, ← hn]
    exact hext
  exact Option.some.inj (hother.symm.trans hform)

theorem mem_defaultPlaces {place : String} :
    place ∈ defaultPlaces env d ↔
      place ∈ places ∨ userPlace? env = some place ∧ (d.look place).isSome = true := by
  rw [defaultPlaces, List.mem_append, Option.mem_toList, userPath?, Option.filter_eq_some_iff]

variable [HashOrder]

/-- A file is read in the form of its path. -/
theorem ofPath?_of_mem_candidates {c : String × Option FileForm}
    (h : c ∈ candidates path) : FileForm.ofPath? c.1 = c.2 := by
  rcases List.mem_cons.1 h with rfl | h
  · rfl
  · obtain ⟨⟨other, form⟩, hextended, rfl⟩ := List.mem_map.1 h
    obtain ⟨⟨title, form'⟩, -, hform⟩ := List.mem_flatMap.1 hextended
    obtain ⟨ext, hmem, hsuffix⟩ := List.mem_filterMap.1 hform
    obtain ⟨other', hother, heq⟩ := Option.map_eq_some_iff.1 hsuffix
    obtain ⟨rfl, rfl⟩ := Prod.mk.inj heq
    obtain ⟨hslash, hlength, hdot, hne⟩ := FileForm.suffix_of_mem_extensions form' ext hmem
    obtain ⟨name, hname, hother'⟩ := Path.name?_of_withSuffix hslash hlength hother
    refine FileForm.ofPath?_eq_some_iff.2 ⟨ext, hmem, ?_⟩
    rw [hother', Option.bind_some, ← String.append_assoc]
    exact Path.extension?_append hname hdot hne

/-- A file is found at a place after a write if it was before, or what was written is found,
which is read in the form that it was written in. -/
theorem fileFor?_write (h : d.write path text = .ok d') {form : FileForm}
    (hform : FileForm.ofPath? path = some form) (place : String) :
    fileFor? d' place = fileFor? d place ∨ ∃ found, fileFor? d' place = some found ∧
      (∀ f ∈ found.2.1, f = form) ∧ found.2.2 = text.toUTF8 := by
  refine findSome?_eq_or fun c hc => ?_
  rcases Disk.look_write h c.1 with halike | ⟨hlook, hname⟩
  · rw [Disk.contentAt?, Disk.contentAt?, halike.content?_eq]
    exact .inl rfl
  · refine .inr ⟨(c.1, c.2, text.toUTF8), ?_, ?_, rfl⟩
    · rw [Disk.contentAt?, hlook]
      rfl
    · rw [← ofPath?_of_mem_candidates hc]
      exact ofPath?_eq_of_name hform hname

variable [Json.RealReader] [FormReader]

/-- The places where settings are looked for without being asked to can be read. -/
def ReadsDefaults (env : Environment) (d : Disk) : Prop :=
  ∀ place ∈ defaultPlaces env d, ∃ entries, ((optionalEntries env place).run d).1 = .ok entries

theorem ReadsDefaults.entries (h : ReadsDefaults env d) : ∃ below : List (List (String × Node)),
    (defaultPlaces env d).map (fun place => ((optionalEntries env place).run d).1) =
      below.map .ok := by
  have hrange : (defaultPlaces env d).map (fun place => ((optionalEntries env place).run d).1) ∈
      Set.range (List.map Except.ok) := by
    rw [Set.range_list_map]
    exact List.forall_mem_map.2 fun place hplace => (h place hplace).imp fun _ heq => heq.symm
  obtain ⟨below, hbelow⟩ := hrange
  exact ⟨below, hbelow.symm⟩

/-- A file in a form that can be read does no harm where settings are looked for. -/
theorem ReadsDefaults.write (hreads : ReadsDefaults env d) (h : d.write path text = .ok d')
    {form : FileForm} (hform : FileForm.ofPath? path = some form)
    (hparse : ∀ origin, ∃ entries, Source.entries ⟨origin, form, text⟩ = .ok entries) :
    ReadsDefaults env d' := by
  intro place hplace
  have hwritten : ∀ found, fileFor? d' place = some found → (∀ f ∈ found.2.1, f = form) →
      found.2.2 = text.toUTF8 →
        ∃ entries, ((optionalEntries env place).run d').1 = .ok entries := by
    rintro ⟨found, form?, content⟩ hfile hforms rfl
    rw [run_optionalEntries, hfile]
    cases form? with
    | none => exact ⟨[], rfl⟩
    | some f =>
        obtain rfl := hforms f rfl
        rw [foundSource_text]
        exact hparse _
  by_cases hbefore : place ∈ defaultPlaces env d
  · rcases fileFor?_write h hform place with hsame | ⟨found, hfile, hforms, hcontent⟩
    · obtain ⟨entries, hentries⟩ := hreads place hbefore
      rw [run_optionalEntries] at hentries
      rw [run_optionalEntries, hsame]
      exact ⟨entries, hentries⟩
    · exact hwritten found hfile hforms hcontent
  · -- The place of the user was made by the write.
    rw [mem_defaultPlaces, not_or] at hbefore
    obtain ⟨huser, hlook⟩ := (mem_defaultPlaces.1 hplace).resolve_left hbefore.1
    rcases Disk.look_write h place with halike | ⟨hlook', hname⟩
    · rw [halike.isSome_eq] at hlook
      exact absurd ⟨huser, hlook⟩ hbefore.2
    · refine hwritten (place, FileForm.ofPath? place, text.toUTF8) ?_
        (ofPath?_eq_of_name hform hname) rfl
      exact fileFor?_of_look hlook'

/-- Settings that were saved to a file with the extension of its form are loaded again, all
seven, whatever stands in the files below it; and saving them again writes the same text. -/
theorem load_saved {s : Settings} (hpath : (Path.name? path).bind Path.extension? = some "toml")
    (henv : ∀ v ∈ env.values, Environment.settingKey? v.1 = none) (hreads : ReadsDefaults env d)
    (hsave : (save s path).run d = (.ok (), d')) :
    (load env (some path)).run d' = (.ok s, d') ∧ (save s path).run d' = (.ok (), d') ∧
      d'.contentAt? path = some s.written.toUTF8 := by
  have hwrite := run_save.1 hsave
  have hform : FileForm.ofPath? path = some .toml :=
    FileForm.ofPath?_eq_some_iff.2 ⟨"toml", List.mem_singleton_self _, hpath⟩
  have hparse := entries_toml (ofText?_written s)
  have hfile : fileFor? d' path = some (path, some .toml, s.written.toUTF8) := by
    rw [fileFor?_of_look (Disk.look_write_self hwrite), hform]
  have hread := requiredEntries_toml env d' hfile (ofText?_written s)
  obtain ⟨below, hbelow⟩ := (hreads.write hwrite hform fun origin => ⟨_, hparse origin⟩).entries
  refine ⟨?_, ?_, Disk.contentAt?_write_self hwrite⟩
  · have hload : ((load env (some path)).run d').1 = .ok s := by
      refine (load_eq_ok_iff_given env d').2 ⟨below, [_], hbelow, congrArg (· :: []) hread, ?_⟩
      rw [settings_eq_nil henv, ofSources, List.foldl_append, List.foldl_append]
      exact ofNode_putSource_written s _ _
    rw [Plan.run_eq_of_readOnly (readOnly_load env (some path)), hload]
  · exact run_save.2 ((Disk.write_write hwrite _).trans hwrite)

end Save

open scoped Concrete

/-- A list of the file below is emptied. -/
theorem load_saved_emptied :
    let s : Settings := ⟨.standard, .standard, ⟨[], "say \"twin\"\n"⟩⟩
    let below : Entry := .file "[loader]\nskip_prefixes = [\"build/\"]\n".toUTF8
    let d : Disk :=
      ⟨.directory [("saved.toml", .file s.written.toUTF8), ("twin.toml", below)], []⟩
    (load ⟨[], "/"⟩ (some "saved.toml")).run d = (.ok s, d) ∧
      (save s "saved.toml").run d = (.ok (), d) ∧
      d.contentAt? "saved.toml" = some s.written.toUTF8 := by
  intro s below d'
  let d : Disk := ⟨.directory [("twin.toml", below)], []⟩
  have hdoc : Toml.ofText? "[loader]\nskip_prefixes = [\"build/\"]\n".toList =
      some [("loader", .table [("skip_prefixes", .list [.text "build/"])])] := by
    cbv
  have hplain : IsPlain [("loader", .table [("skip_prefixes", .list [.text "build/"])])] :=
    List.forall_mem_singleton.2 ⟨List.all_eq_true.1 rfl, _, rfl, by simp⟩
  have hreads : ReadsDefaults ⟨[], "/"⟩ d := by
    have hread : ∀ {place layer}, Says ⟨[], "/"⟩ d place layer →
        ∃ entries, ((optionalEntries ⟨[], "/"⟩ place).run d).1 = .ok entries :=
      fun hsays => hsays.optional.imp fun _ h => h.1
    change ∀ place ∈ ["twin.toml", ".twin.toml", "config/twin.toml"], _
    simp only [List.forall_mem_cons]
    exact ⟨hread (.file rfl hdoc hplain), hread (.nothing rfl), hread (.nothing rfl), by simp⟩
  have hfree : ∀ es, d.root.find? ["saved.toml"] ≠ some (.directory es) := by
    rintro es ⟨⟩
  have hreceives : d.Receives "saved.toml" [] "saved.toml" :=
    ⟨by decide, ⟨[], by decide, rfl⟩, by decide, ⟨⟨_, rfl⟩, hfree⟩⟩
  have hput : d' = d.withFile ["saved.toml"] s.written.toUTF8 := by
    have hfirst : "saved.toml" < "twin.toml" := by decide
    simp [d', d, Disk.withFile, Entry.put, Entry.entries, Text.insertEntry, hfirst]
  have hsave : (save s "saved.toml").run d = (.ok (), d') :=
    run_save.2 (Disk.write_eq_ok_iff.2 ⟨[], "saved.toml", hreceives, hput⟩)
  exact load_saved (by decide) (by simp) hreads hsave

end Settings

end DeviceTwin
