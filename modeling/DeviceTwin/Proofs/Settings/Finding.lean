import DeviceTwin.Proofs.Files.Writing
import DeviceTwin.Settings.Sources

/-!
# What the sources of settings give

Looking for settings changes no disk, so what a plan finds depends on the disk alone. A path
means the first file among a few (`fileFor?`), and `load_eq_ok_iff` takes the run of `load`
apart into what each of the sources gives.
-/

namespace DeviceTwin

namespace Files

namespace Plan

variable {α β : Type}

theorem run_eq_of_readOnly {t : Plan α} (h : ReadOnly t) (d : Disk) :
    t.run d = ((t.run d).1, d) :=
  Prod.ext rfl (run_disk_of_readOnly h d)

theorem run_bind_of_readOnly {t : Plan α} (h : ReadOnly t) (f : α → Plan β) (d : Disk) :
    (t >>= f).run d = (f (t.run d).1).run d := by
  rw [run_bind, run_disk_of_readOnly h]

theorem readOnly_mapM {f : α → Plan β} (h : ∀ a, ReadOnly (f a)) (as : List α) :
    ReadOnly (as.mapM f) := by
  induction as with
  | nil => exact .done []
  | cons a as ih =>
      rw [List.mapM_cons]
      exact (h a).bind fun _ => ih.bind fun _ => .done _

theorem run_mapM_of_readOnly {f : α → Plan β} (h : ∀ a, ReadOnly (f a)) (as : List α)
    (d : Disk) : ((as.mapM f).run d).1 = as.map fun a => ((f a).run d).1 := by
  induction as with
  | nil => rfl
  | cons a as ih =>
      rw [List.mapM_cons, run_bind_of_readOnly (h a), run_bind_of_readOnly (readOnly_mapM h as),
        ih]
      rfl

end Plan

end Files

namespace Settings

open DeviceTwin.Files DeviceTwin.Files.Plan

/-- The source that a file is, if its form is known and it holds a text. -/
def foundSource (env : Environment) (path : String) :
    Option (String × Option FileForm × ByteArray) → Except Fault Source
  | some (path, some form, content) => Source.ofFile env path form content
  | some (_, none, _) => .error (.unknownForm (Path.joined env.directory path))
  | none => .error (.notFound path)

theorem foundSource_text (env : Environment) (path found : String) (form : FileForm)
    (text : String) : foundSource env path (some (found, some form, text.toUTF8)) =
      .ok ⟨originOf env found, form, text⟩ := by
  simp only [foundSource, Source.ofFile, strict_toUTF8]

theorem readOnly_firstFile? (ps : List (String × FileForm)) : ReadOnly (firstFile? ps) := by
  induction ps with
  | nil => exact .done none
  | cons p ps ih =>
      refine (readOnly_entry p.1).bind fun e => ?_
      cases e with
      | none => exact ih
      | some e =>
          cases e with
          | file content => exact .done _
          | directory entries => exact ih

theorem run_firstFile? (d : Disk) (ps : List (String × FileForm)) :
    ((firstFile? ps).run d).1 = ps.findSome? fun p =>
      (d.contentAt? p.1).map fun content => (p.1, p.2, content) := by
  induction ps with
  | nil => rfl
  | cons p ps ih =>
      rw [firstFile?, run_bind_of_readOnly (readOnly_entry p.1), run_entry, List.findSome?_cons,
        ← ih, Disk.contentAt?]
      cases d.look p.1 with
      | none => rfl
      | some e => cases e <;> rfl

/-- The place among the user's own settings, if anything stands there. -/
def userPath? (env : Environment) (d : Disk) : Option String :=
  (userPlace? env).filter fun path => (d.look path).isSome

/-- The places where settings are looked for without being asked to. -/
def defaultPlaces (env : Environment) (d : Disk) : List String :=
  places ++ (userPath? env d).toList

theorem append_cons_append_eq_map_ok {α : Type} {xs ys : List (Except Fault α)}
    {y : Except Fault α} {b : α} {as : List α} :
    xs ++ y :: ys ++ [.ok b] = as.map .ok ↔
      ∃ us v ws, as = us ++ v :: ws ++ [b] ∧ xs = us.map .ok ∧ y = .ok v ∧ ys = ws.map .ok := by
  constructor
  · intro h
    obtain ⟨front, last, rfl, hfront, hlast⟩ := List.map_eq_append_iff.1 h.symm
    obtain ⟨us, rest, rfl, hus, hrest⟩ := List.map_eq_append_iff.1 hfront
    obtain ⟨v, ws, rfl, hv, hws⟩ := List.map_eq_cons_iff.1 hrest
    obtain ⟨b', rfl, hb'⟩ := List.map_eq_singleton_iff.1 hlast
    obtain rfl := Except.ok.inj hb'
    exact ⟨us, v, ws, rfl, hus.symm, hv.symm, hws.symm⟩
  · rintro ⟨us, v, ws, rfl, rfl, rfl, rfl⟩
    simp

/-- A source that says nothing changes nothing. -/
theorem ofSources_insert_nil (as bs : List (List (String × Node))) :
    ofSources (as ++ [] :: bs) = ofSources (as ++ bs) := by
  rw [ofSources, ofSources, List.foldl_append, List.foldl_append]
  rfl

section Load

variable [Text.HashOrder]

/-- The paths that a path may mean, with the forms of their files. -/
def candidates (path : String) : List (String × Option FileForm) :=
  (path, FileForm.ofPath? path) :: (extended path).map fun c => (c.1, some c.2)

/-- The file that a path means: its path, its form and its content. -/
def fileFor? (d : Disk) (path : String) : Option (String × Option FileForm × ByteArray) :=
  (candidates path).findSome? fun c =>
    (d.contentAt? c.1).map fun content => (c.1, c.2, content)

theorem fileFor?_of_look {d : Disk} {path : String} {content : ByteArray}
    (h : d.look path = some (.file content)) :
    fileFor? d path = some (path, FileForm.ofPath? path, content) := by
  rw [fileFor?, candidates, List.findSome?_cons, Disk.contentAt?, h]
  rfl

variable (env : Environment) (d : Disk)

theorem readOnly_find (path : String) : ReadOnly (find env path) := by
  have hrest : ∀ g : Option (String × FileForm × ByteArray) → Plan (Except Fault Source),
      (∀ found, ReadOnly (g (some found))) → ReadOnly (g none) →
        ReadOnly (firstFile? (extended path) >>= g) :=
    fun _ hsome hnone => (readOnly_firstFile? _).bind (Option.rec hnone hsome)
  refine (readOnly_entry path).bind fun e => ?_
  cases e with
  | none => exact hrest _ (fun _ => .done _) (.done _)
  | some e =>
      cases e with
      | directory entries => exact hrest _ (fun _ => .done _) (.done _)
      | file content => cases FileForm.ofPath? path <;> exact .done _

theorem run_find (path : String) :
    ((find env path).run d).1 = foundSource env path (fileFor? d path) := by
  have hrest : ∀ g : Option (String × FileForm × ByteArray) → Plan (Except Fault Source),
      (∀ path form content, g (some (path, form, content)) =
        .done (Source.ofFile env path form content)) →
      g none = .done (.error (.notFound path)) → d.contentAt? path = none →
        ((firstFile? (extended path) >>= g).run d).1 =
          foundSource env path (fileFor? d path) := by
    intro g hsome hnone hpath
    have hfound : fileFor? d path = ((extended path).findSome? fun p =>
        (d.contentAt? p.1).map fun content => (p.1, p.2, content)).map fun found =>
          (found.1, some found.2.1, found.2.2) := by
      rw [fileFor?, candidates, List.findSome?_cons, hpath, List.map_findSome?,
        List.findSome?_map]
      simp [Function.comp_def]
    rw [run_bind_of_readOnly (readOnly_firstFile? _), run_firstFile?, hfound]
    cases List.findSome? _ (extended path) with
    | none =>
        rw [hnone]
        rfl
    | some found =>
        rw [hsome]
        rfl
  rw [find, run_bind_of_readOnly (readOnly_entry path), run_entry]
  cases hlook : d.look path with
  | none => exact hrest _ (fun _ _ _ => rfl) rfl (by rw [Disk.contentAt?, hlook]; rfl)
  | some e =>
      cases e with
      | directory entries =>
          exact hrest _ (fun _ _ _ => rfl) rfl (by rw [Disk.contentAt?, hlook]; rfl)
      | file content =>
          rw [fileFor?_of_look hlook]
          cases FileForm.ofPath? path <;> rfl

variable [Json.RealReader] [FormReader]

theorem entries_toml {text : String} {doc : List (String × Toml.Value)}
    (h : Toml.ofText? text.toList = some doc) (origin : String) :
    Source.entries ⟨origin, .toml, text⟩ =
      .ok (Node.hashedSource origin (Node.ofTomlEntries origin doc)) := by
  simp only [Source.entries, FileForm.parse?, h, Option.map_some]

theorem readOnly_optionalEntries (path : String) : ReadOnly (optionalEntries env path) := by
  refine (readOnly_find env path).bind fun found => ?_
  cases found <;> exact .done _

theorem run_optionalEntries (path : String) :
    ((optionalEntries env path).run d).1 =
      match foundSource env path (fileFor? d path) with
      | .ok s => s.entries
      | .error _ => .ok [] := by
  rw [optionalEntries, run_bind_of_readOnly (readOnly_find env path), run_find]
  cases foundSource env path (fileFor? d path) <;> rfl

theorem readOnly_requiredEntries (path : String) : ReadOnly (requiredEntries env path) := by
  refine (readOnly_find env path).bind fun found => ?_
  cases found <;> exact .done _

theorem run_requiredEntries (path : String) :
    ((requiredEntries env path).run d).1 =
      (foundSource env path (fileFor? d path)).bind Source.entries := by
  rw [requiredEntries, run_bind_of_readOnly (readOnly_find env path), run_find]
  cases foundSource env path (fileFor? d path) <;> rfl

/-- A TOML file that has to be there gives the tables of its document. -/
theorem requiredEntries_toml {path found text : String} {doc : List (String × Toml.Value)}
    (hfile : fileFor? d path = some (found, some .toml, text.toUTF8))
    (hdoc : Toml.ofText? text.toList = some doc) :
    ((requiredEntries env path).run d).1 =
      .ok (Node.hashedSource (originOf env found)
        (Node.ofTomlEntries (originOf env found) doc)) := by
  rw [run_requiredEntries, hfile, foundSource_text]
  exact entries_toml hdoc (originOf env found)

variable {env d} in
/-- A file that has to be there is there if anything was read. -/
theorem isSome_of_requiredEntries {path : String} {entries : List (String × Node)}
    (h : ((requiredEntries env path).run d).1 = .ok entries) :
    (fileFor? d path).isSome = true := by
  rw [run_requiredEntries] at h
  cases hfile : fileFor? d path with
  | none =>
      rw [hfile] at h
      cases h
  | some found => rfl

theorem readOnly_userEntries : ReadOnly (userEntries env) := by
  rw [userEntries]
  cases userPlace? env with
  | none => exact .done _
  | some path =>
      refine (readOnly_entry path).bind fun e => ?_
      cases e with
      | none => exact .done _
      | some e => exact readOnly_optionalEntries env path

theorem run_userEntries :
    ((userEntries env).run d).1 =
      ((userPath? env d).map fun path => ((optionalEntries env path).run d).1).getD (.ok []) := by
  rw [userEntries, userPath?]
  cases userPlace? env with
  | none => rfl
  | some path =>
      change ((entry path >>= _).run d).1 = _
      rw [run_bind_of_readOnly (readOnly_entry path), run_entry, Option.filter_some]
      cases d.look path <;> rfl

theorem readOnly_sources (path : Option String) : ReadOnly (sources env path) :=
  (readOnly_mapM (readOnly_optionalEntries env) _).bind fun _ =>
    (readOnly_userEntries env).bind fun _ =>
      (readOnly_mapM (readOnly_requiredEntries env) _).bind fun _ => .done _

theorem readOnly_load (path : Option String) : ReadOnly (load env path) :=
  (readOnly_sources env path).bind fun _ => .done _

theorem run_load (path : Option String) :
    ((load env path).run d).1 =
      ((places.map (fun place => ((optionalEntries env place).run d).1) ++
        ((userEntries env).run d).1 ::
          (path.toList.map fun path => ((requiredEntries env path).run d).1) ++
        [Except.ok env.settings]).mapM id).bind ofSources := by
  rw [load, run_bind_of_readOnly (readOnly_sources env path), sources,
    run_bind_of_readOnly (readOnly_mapM (readOnly_optionalEntries env) _),
    run_bind_of_readOnly (readOnly_userEntries env),
    run_bind_of_readOnly (readOnly_mapM (readOnly_requiredEntries env) _),
    run_mapM_of_readOnly (readOnly_optionalEntries env),
    run_mapM_of_readOnly (readOnly_requiredEntries env)]
  rfl

/-- Settings are loaded if every source can be read, and then out of what they say. -/
theorem load_eq_ok_iff_given {path : Option String} {s : Settings} :
    ((load env path).run d).1 = .ok s ↔
      ∃ below asked,
        (defaultPlaces env d).map (fun place => ((optionalEntries env place).run d).1) =
          below.map .ok ∧
        (path.toList.map fun path => ((requiredEntries env path).run d).1) = asked.map .ok ∧
        ofSources (below ++ asked ++ [env.settings]) = .ok s := by
  rw [run_load, run_userEntries, defaultPlaces, List.map_append]
  refine bind_eq_ok_iff.trans ?_
  simp only [mapM_id_eq_ok_iff, append_cons_append_eq_map_ok]
  cases userPath? env d with
  | none =>
      constructor
      · rintro ⟨_, ⟨below, _, asked, rfl, hbelow, ⟨⟩, hasked⟩, hs⟩
        refine ⟨below, asked, by simpa using hbelow, hasked, ?_⟩
        rwa [List.append_assoc, List.cons_append, ofSources_insert_nil, ← List.append_assoc] at hs
      · rintro ⟨below, asked, hbelow, hasked, hs⟩
        refine ⟨_, ⟨below, [], asked, rfl, by simpa using hbelow, rfl, hasked⟩, ?_⟩
        rwa [List.append_assoc, List.cons_append, ofSources_insert_nil, ← List.append_assoc]
  | some place =>
      constructor
      · rintro ⟨_, ⟨below, user, asked, rfl, hbelow, huser, hasked⟩, hs⟩
        refine ⟨below ++ [user], asked, ?_, hasked, by simpa using hs⟩
        rw [hbelow, List.map_append]
        exact congrArg _ (congrArg (· :: []) huser)
      · rintro ⟨_, asked, hall, hasked, hs⟩
        obtain ⟨below, last, rfl, hbelow, hlast⟩ := List.map_eq_append_iff.1 hall.symm
        obtain ⟨user, rfl, huser⟩ := List.map_eq_singleton_iff.1 hlast
        exact ⟨_, ⟨below, user, asked, rfl, hbelow.symm, huser.symm, hasked⟩, by simpa using hs⟩

end Load

end Settings

end DeviceTwin
