import DeviceTwin.Command.Inspection
import DeviceTwin.Proofs.Settings.Finding
import DeviceTwin.Proofs.Validation.Suggestion
import DeviceTwin.Suggestion.Score
import Mathlib.Data.List.Permutation

/-!
# The verdict on several paths

A path selects the descriptions below the directory that it leads to, or else what stands there
itself (`LoaderSettings.filesAt`). A run of the command reports every selected file in a block of
lines of its own, whatever the other blocks say, and its exit code is 0 if and only if all of them
are in order (`Inspection.validation_reports_every_file`). How suggestions are made and shown has
no part in this.
-/

namespace DeviceTwin

open DeviceTwin.Files DeviceTwin.Validation

/-- The lines on a defect begin with its code, with or without a suggestion. -/
theorem Verdict.line_eq (b : Bool) (d : Defect) :
    "   └─ " ++ (if b then d else d.withoutSuggestion).line =
      "   └─ [" ++ d.code ++ "] " ++ (if b then d else d.withoutSuggestion).message := by
  have hcode : (if b then d else d.withoutSuggestion).code = d.code := by
    cases b with
    | false => exact congrArg DefectKind.code d.kind_withoutSuggestion
    | true => rfl
  rw [Defect.line, hcode]
  simp only [← String.append_assoc]
  rfl

/-- Any paths can be validated, as long as none of them is empty. -/
theorem Inspection.parse_validate {paths : List String} (hpaths : paths ≠ [])
    (hempty : "" ∉ paths) :
    parse ("validate" :: "--" :: paths) = some (none, .validate paths) := by
  have hcommand : Arguments.readCommand [configOption] ("validate" :: "--" :: paths) =
      some (⟨[], []⟩, "validate", "--" :: paths) := rfl
  have hread : Arguments.read [configOption] ("--" :: paths) = some ⟨[], paths⟩ := rfl
  have hinspection : ofArguments ⟨[], paths⟩ "validate" = some (.validate paths) := by
    simp [ofArguments, hpaths, hempty]
  simp only [parse, hcommand, optionsOf, hread, hinspection, Option.bind_eq_bind, Option.bind_some]
  rfl

section Reports

variable [Text.HashOrder] [Suggestion.Matcher]

/-- The block of lines that a report has on a file. -/
inductive Reports (s : Settings) : String × Except LoadFault Model → List String → Prop
  | unread (path : String) (fault : LoadFault) :
    Reports s (path, .error fault) ["❌ " ++ path ++ " - " ++ fault.message]
  | valid {path : String} {m : Model} (h : check s.validation m = []) :
    Reports s (path, .ok m) ["✅ " ++ path ++ " (" ++ m.id ++ ")"]
  | defective {path : String} {m : Model} (h : check s.validation m ≠ []) :
    Reports s (path, .ok m)
      (("❌ " ++ path ++ " - " ++ toString (check s.validation m).length ++ " defect(s)") ::
        (check s.validation m).map fun d => "   └─ [" ++ d.code ++ "] " ++
          (if s.report.showSuggestions then d else d.withoutSuggestion).message)

/-- A run that reports each of several files in a block of its own, and ends with 0 if and only if
all of them hold descriptions without defects. -/
structure Covers (s : Settings) (files : List (String × Except LoadFault Model))
    (outcome : Outcome) (blocks : List (List String)) : Prop where
  reports : List.Forall₂ (Reports s) files blocks
  output : ∃ summary, outcome.output = Outcome.text (blocks.flatten ++ ["", summary])
  errors : outcome.errors = ""
  code_eq_zero_iff :
    outcome.code = 0 ↔ ∀ f ∈ files, ∃ m, f.2 = .ok m ∧ check s.validation m = []
  code_le_one : outcome.code ≤ 1

/-! ### One file -/

theorem Validation.codes_check_congr {v v' : ValidationSettings}
    (hcontext : v'.expectedContext = v.expectedContext)
    (hemitted : v'.checkEmittedEvents = v.checkEmittedEvents) (m : Model) :
    (check v' m).map Defect.code = (check v m).map Defect.code := by
  have hcode : ∀ ds : Defects, ds.map Defect.code = ds.withoutSuggestions.map Defect.code := by
    intro ds
    rw [Defects.withoutSuggestions, List.map_map]
    exact List.map_congr_left fun d _ => congrArg DefectKind.code d.kind_withoutSuggestion.symm
  rw [hcode, hcode (check v m), withoutSuggestions_check_congr hcontext hemitted]

theorem Validation.check_eq_nil_congr {v v' : ValidationSettings} {m : Model}
    (h : (check v' m).map Defect.code = (check v m).map Defect.code) :
    check v' m = [] ↔ check v m = [] := by
  rw [← List.map_eq_nil_iff, h, List.map_eq_nil_iff]

theorem Verdict.isValid_of_iff {v : ValidationSettings} {outcome : Except LoadFault Model} :
    (Verdict.of v outcome).isValid = true ↔ ∃ m, outcome = .ok m ∧ check v m = [] := by
  cases outcome with
  | error fault => simp [Verdict.of, isValid]
  | ok m =>
      rw [Verdict.of, validate]
      cases hcheck : check v m with
      | nil => simp [isValid, hcheck]
      | cons d ds => simp [isValid, hcheck]

theorem Verdict.reports_lines (s : Settings) (path : String) (outcome : Except LoadFault Model) :
    Reports s (path, outcome)
      ((Verdict.of s.validation outcome).lines s.report.showSuggestions path) := by
  cases outcome with
  | error fault => exact .unread path fault
  | ok m =>
      rw [Verdict.of, validate]
      cases hcheck : check s.validation m with
      | nil => exact .valid hcheck
      | cons d ds =>
          have hne : check s.validation m ≠ [] := by simp [hcheck]
          have hblock : Reports s (path, .ok m) _ := .defective hne
          rw [hcheck] at hblock
          simpa only [List.isEmpty_cons, Bool.false_eq_true, if_false, lines, line_eq] using hblock

/-- Two reports on a file with the same codes have the same heading and as many lines. -/
theorem Reports.congr {s s' : Settings} {f : String × Except LoadFault Model} {b b' : List String}
    (h : Reports s f b) (h' : Reports s' f b')
    (hcodes : ∀ m, (check s'.validation m).map Defect.code =
      (check s.validation m).map Defect.code) :
    b'.head? = b.head? ∧ b'.length = b.length := by
  cases h with
  | unread path fault =>
      cases h'
      exact ⟨rfl, rfl⟩
  | @valid path m hm =>
      cases h' with
      | valid _ => exact ⟨rfl, rfl⟩
      | defective hm' => exact absurd ((check_eq_nil_congr (hcodes m)).2 hm) hm'
  | @defective path m hm =>
      cases h' with
      | valid hm' => exact absurd ((check_eq_nil_congr (hcodes m)).1 hm') hm
      | defective _ =>
          have hlength : (check s'.validation m).length = (check s.validation m).length := by
            simpa using congrArg List.length (hcodes m)
          simp [hlength]

/-! ### All files -/

theorem Inspection.validateOutcome_covers (s : Settings)
    (files : List (String × Except LoadFault Model)) :
    Covers s files
      (validateOutcome s (files.map fun f => (f.1, Verdict.of s.validation f.2)))
      (files.map fun f => (Verdict.of s.validation f.2).lines s.report.showSuggestions f.1) := by
  have hvalid : ((files.map fun f => (f.1, Verdict.of s.validation f.2)).all fun v =>
      v.2.isValid) = true ↔ ∀ f ∈ files, ∃ m, f.2 = .ok m ∧ check s.validation m = [] := by
    simp only [List.all_map, List.all_eq_true, Function.comp_apply, Verdict.isValid_of_iff]
  have hreports : List.Forall₂ (Reports s) files (files.map fun f =>
      (Verdict.of s.validation f.2).lines s.report.showSuggestions f.1) :=
    List.forall₂_map_right_iff.2
      (List.forall₂_same.2 fun f _ => Verdict.reports_lines s f.1 f.2)
  rw [validateOutcome, List.flatMap_map, List.flatMap_def]
  split_ifs with h
  · exact ⟨hreports, ⟨_, rfl⟩, rfl, iff_of_true rfl (hvalid.1 h), Nat.zero_le 1⟩
  · exact ⟨hreports, ⟨_, rfl⟩, rfl, iff_of_false (by simp [Outcome.failure]) (mt hvalid.2 h),
      Nat.le_refl 1⟩

/-- Runs that cover the same files end alike if the codes of the defects are the same. -/
theorem Covers.congr {s s' : Settings} {files : List (String × Except LoadFault Model)}
    {outcome outcome' : Outcome} {blocks blocks' : List (List String)}
    (h : Covers s files outcome blocks) (h' : Covers s' files outcome' blocks')
    (hcodes : ∀ m, (check s'.validation m).map Defect.code =
      (check s.validation m).map Defect.code) :
    outcome'.code = outcome.code ∧
      List.Forall₂ (fun b b' => b'.head? = b.head? ∧ b'.length = b.length) blocks blocks' := by
  have hzero : outcome'.code = 0 ↔ outcome.code = 0 := by
    rw [h.code_eq_zero_iff, h'.code_eq_zero_iff]
    simp only [check_eq_nil_congr (hcodes _)]
  refine ⟨by have := h.code_le_one; have := h'.code_le_one; omega, ?_⟩
  have hreports := h.reports
  have hreports' := h'.reports
  clear h h' hzero
  induction hreports generalizing blocks' with
  | nil =>
      cases hreports'
      exact .nil
  | cons hb _ ih =>
      cases hreports' with
      | cons hb' hreports' => exact .cons (hb.congr hb' hcodes) (ih hreports')

end Reports

section Files

variable [Json.RealReader]

/-- The files that a path selects, each with what comes of loading it. -/
def LoaderSettings.filesAt (s : LoaderSettings) (d : Disk) (path : String) :
    List (String × Except LoadFault Model) :=
  match ((Model.loadDirectory s path).run d).1 with
  | .ok loaded => loaded.map fun l => (Path.joined path l.path, l.outcome)
  | .error _ => [(path, ((Model.load path).run d).1)]

/-- What a path selects depends on what stands there. -/
theorem LoaderSettings.filesAt_congr (s : LoaderSettings) {d d' : Disk} {path : String}
    (h : d'.look path = d.look path) : s.filesAt d' path = s.filesAt d path := by
  simp only [filesAt, Model.loadDirectory, Model.load, Plan.run_bind, Plan.run_entry, h]
  rcases d.look path with _ | content | entries <;> rfl

variable [Text.HashOrder] [Suggestion.Matcher]

namespace Verdict

theorem onEntry_look (s : Settings) (d : Disk) (path : String) :
    onEntry s path (d.look path) =
      (s.loader.filesAt d path).map fun f => (f.1, Verdict.of s.validation f.2) := by
  have hload : (Model.load path).run d = (Model.ofEntry path (d.look path), d) := rfl
  rw [LoaderSettings.filesAt, hload]
  simp only [Model.loadDirectory, Plan.run_bind, Plan.run_entry, Plan.pure_eq]
  rcases hlook : d.look path with _ | content | entries
  · rfl
  · rfl
  · simp only [onEntry, Plan.run_done, List.map_map, Function.comp_def]

theorem run_onPaths (s : Settings) (d : Disk) (paths : List String) :
    (onPaths s paths).run d =
      ((paths.flatMap (s.loader.filesAt d)).map fun f =>
        (f.1, Verdict.of s.validation f.2), d) := by
  induction paths with
  | nil => rfl
  | cons path paths ih =>
      simp only [onPaths, Plan.run_bind, Plan.run_entry, ih, Plan.pure_eq, Plan.run_done,
        onEntry_look, List.flatMap_cons, List.map_append]

end Verdict

namespace Inspection

variable [Settings.FormReader] {env : Environment} {args : List String} {config : Option String}
  {paths : List String} {d : Disk} {s : Settings}

theorem run_validate (hargs : parse args = some (config, .validate paths))
    (hload : ((Settings.load env config).run d).1 = .ok s) :
    (run env args).run d = (validateOutcome s ((paths.flatMap (s.loader.filesAt d)).map fun f =>
      (f.1, Verdict.of s.validation f.2)), d) := by
  simp only [run, hargs, Plan.run_bind_of_readOnly (Settings.readOnly_load env config), hload,
    perform, Plan.run_bind, Verdict.run_onPaths, Plan.pure_eq, Plan.run_done]

/-- Validation reports every file that the paths select, in order and each in its own block of
lines, and ends with 0 if and only if every one of them holds a description without defects. Runs
with settings that differ in how suggestions are made and shown, or in the format of the output,
end alike and have the same headings, numbers of defects, and codes. -/
theorem validation_reports_every_file (hargs : parse args = some (config, .validate paths))
    (hload : ((Settings.load env config).run d).1 = .ok s) :
    ∃ outcome blocks, (run env args).run d = (outcome, d) ∧
      Covers s (paths.flatMap (s.loader.filesAt d)) outcome blocks ∧
      ∀ {env' args' config' d' s'}, parse args' = some (config', .validate paths) →
        ((Settings.load env' config').run d').1 = .ok s' →
        (∀ path ∈ paths, d'.look path = d.look path) →
        s'.loader = s.loader → s'.validation.expectedContext = s.validation.expectedContext →
        s'.validation.checkEmittedEvents = s.validation.checkEmittedEvents →
        ∃ outcome' blocks', (run env' args').run d' = (outcome', d') ∧
          Covers s' (paths.flatMap (s.loader.filesAt d)) outcome' blocks' ∧
          outcome'.code = outcome.code ∧
          List.Forall₂ (fun b b' => b'.head? = b.head? ∧ b'.length = b.length) blocks blocks' ∧
          ∀ m, (check s'.validation m).map Defect.code =
            (check s.validation m).map Defect.code := by
  have hcovers := validateOutcome_covers s (paths.flatMap (s.loader.filesAt d))
  refine ⟨_, _, run_validate hargs hload, hcovers, ?_⟩
  intro env' args' config' d' s' hargs' hload' hlook hloader hcontext hemitted
  have hfiles : paths.flatMap (s'.loader.filesAt d') = paths.flatMap (s.loader.filesAt d) := by
    rw [hloader]
    exact List.flatMap_congr fun path hpath => s.loader.filesAt_congr (hlook path hpath)
  have hcovers' := validateOutcome_covers s' (paths.flatMap (s.loader.filesAt d))
  have hcodes := codes_check_congr hcontext hemitted
  obtain ⟨hcode, hblocks⟩ := hcovers.congr hcovers' hcodes
  exact ⟨_, _, hfiles ▸ run_validate hargs' hload', hcovers', hcode, hblocks, hcodes⟩

end Inspection

end Files

open Inspection

open scoped Concrete

/-- A file that is missing and one that is cut off, also when suggestions are not shown. -/
theorem Inspection.validation_reports_every_file_missing :
    let quiet := "[report]\nshow_suggestions = false\n"
    let d : Disk := ⟨.directory [("lamp.json", .file "\x7b".toUTF8)], []⟩
    let d' : Disk :=
      ⟨.directory [("lamp.json", .file "\x7b".toUTF8), ("quiet.toml", .file quiet.toUTF8)], []⟩
    let args := ["validate", "--", "missing.json", "lamp.json"]
    parse args = some (none, .validate ["missing.json", "lamp.json"]) ∧
      ((Settings.load ⟨[], "/"⟩ none).run d).1 = .ok .standard ∧
      ∃ outcome outcome', (run ⟨[], "/"⟩ args).run d = (outcome, d) ∧
        (run ⟨[], "/"⟩ ("-c" :: "quiet.toml" :: args)).run d' = (outcome', d') ∧
        outcome.code = 1 ∧ outcome'.code = 1 := by
  intro quiet d d' args
  have hargs : parse args = some (none, .validate ["missing.json", "lamp.json"]) :=
    parse_validate (by simp) (by decide)
  have hargs' : parse ("-c" :: "quiet.toml" :: args) =
      some (some "quiet.toml", .validate ["missing.json", "lamp.json"]) := rfl
  have hload : ((Settings.load ⟨[], "/"⟩ none).run d).1 = .ok .standard :=
    (Settings.load_eq_ok_iff_given _ _).2 ⟨[[], [], []], [], rfl, rfl, rfl⟩
  have hdoc : Toml.ofText? "[report]\nshow_suggestions = false\n".toList =
      some [("report", .table [("show_suggestions", .flag false)])] := by
    cbv
  have hload' : ((Settings.load ⟨[], "/"⟩ (some "quiet.toml")).run d').1 =
      .ok ⟨.standard, ⟨.pretty, false⟩, .standard⟩ :=
    (Settings.load_eq_ok_iff_given _ _).2 ⟨[[], [], []], [_], rfl,
      congrArg (· :: []) (Settings.requiredEntries_toml ⟨[], "/"⟩ d' rfl hdoc), rfl⟩
  obtain ⟨outcome, blocks, hrun, hcovers, hother⟩ := validation_reports_every_file hargs hload
  have hlook : ∀ path ∈ ["missing.json", "lamp.json"], d'.look path = d.look path :=
    List.forall_mem_cons.2 ⟨rfl, List.forall_mem_singleton.2 rfl⟩
  obtain ⟨outcome', -, hrun', -, hcode', -⟩ := hother hargs' hload' hlook rfl rfl rfl
  have hcode : outcome.code ≠ 0 := by
    intro hzero
    obtain ⟨m, hm, -⟩ := hcovers.code_eq_zero_iff.1 hzero
      ("missing.json", .error (.notFound "missing.json")) List.mem_cons_self
    cases hm
  have hone : outcome.code = 1 := by
    have := hcovers.code_le_one
    omega
  exact ⟨hargs, hload, outcome, outcome', hrun, hrun', hone, hcode'.trans hone⟩

end DeviceTwin
