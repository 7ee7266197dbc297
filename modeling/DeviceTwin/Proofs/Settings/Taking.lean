import DeviceTwin.Proofs.Results
import DeviceTwin.Proofs.Settings.Tree
import DeviceTwin.Settings.Reading

/-!
# The seven settings

A setting has a place in the tree, the name of a variable, and a way to take its value. The
tree is read into settings one by one: reading gives `s` exactly if each of the seven has in
`s` the value that stands at its place, or its default if none does
(`ofNode_eq_ok_iff`).
-/

namespace DeviceTwin.Settings

/-- One of the settings. -/
structure Setting where
  Value : Type
  group : String
  name : String
  variableName : String
  taking : Taking Value
  get : Settings → Value

namespace Setting

def expectedContext : Setting where
  Value := String
  group := "validation"
  name := "expected_context"
  variableName := "TWIN__VALIDATION__EXPECTED_CONTEXT"
  taking := takeText
  get s := s.validation.expectedContext

def checkEmittedEvents : Setting where
  Value := Bool
  group := "validation"
  name := "check_emitted_events"
  variableName := "TWIN__VALIDATION__CHECK_EMITTED_EVENTS"
  taking := takeFlag
  get s := s.validation.checkEmittedEvents

def suggestNames : Setting where
  Value := Bool
  group := "validation"
  name := "suggest_names"
  variableName := "TWIN__VALIDATION__SUGGEST_NAMES"
  taking := takeFlag
  get s := s.validation.suggestNames

def outputFormat : Setting where
  Value := OutputFormat
  group := "report"
  name := "output_format"
  variableName := "TWIN__REPORT__OUTPUT_FORMAT"
  taking := takeFormat
  get s := s.report.outputFormat

def showSuggestions : Setting where
  Value := Bool
  group := "report"
  name := "show_suggestions"
  variableName := "TWIN__REPORT__SHOW_SUGGESTIONS"
  taking := takeFlag
  get s := s.report.showSuggestions

def skipPrefixes : Setting where
  Value := List String
  group := "loader"
  name := "skip_prefixes"
  variableName := "TWIN__LOADER__SKIP_PREFIXES"
  taking := takeTexts
  get s := s.loader.skipPrefixes

def extension : Setting where
  Value := String
  group := "loader"
  name := "extension"
  variableName := "TWIN__LOADER__EXTENSION"
  taking := takeText
  get s := s.loader.extension

def all : List Setting :=
  [expectedContext, checkEmittedEvents, suggestNames, outputFormat, showSuggestions,
    skipPrefixes, extension]

/-- The key of a setting as messages give it. -/
def key (x : Setting) : String :=
  x.group ++ "." ++ x.name

end Setting

/-- A value is taken from a node, or it is the default if there is none. -/
def Taken {α : Type} (taking : Taking α) (key : String) (default a : α) : Option Node → Prop
  | some n => taking key n = .ok a
  | none => a = default

/-- A setting has its value from a node, or its default. -/
def Setting.Has (x : Setting) (s : Settings) (n? : Option Node) : Prop :=
  Taken x.taking x.key (x.get .standard) (x.get s) n?

theorem Fields.take_eq_ok_iff {α : Type} {taking : Taking α} {default a : α} {key name : String}
    {place : Nat} {entries : List (String × Node)} :
    (Fields.keyed key entries).take place name taking default = .ok a ↔
      Taken taking (innerKey key name) default a (Text.lookupEntry name entries) := by
  rw [Fields.take]
  cases Text.lookupEntry name entries with
  | none => exact ⟨fun h => (Except.ok.inj h).symm, fun h => congrArg Except.ok (Eq.symm h)⟩
  | some n => exact Iff.rfl

theorem takeFields_of_isTable {n : Node} (h : n.IsTable) (title key : String) :
    takeFields title key n = .ok (.keyed key n.entries) := by
  obtain ⟨origin, entries, rfl⟩ := h
  rfl

section

variable {n? : Option Node} (h : ∀ n ∈ n?, n.IsTable)

include h

theorem validation_taken {v : ValidationSettings} :
    Taken takeValidation "validation" .standard v n? ↔
      Taken takeText "validation.expected_context" Model.standardContext v.expectedContext
        (n?.bind (·.get? "expected_context")) ∧
      Taken takeFlag "validation.check_emitted_events" true v.checkEmittedEvents
        (n?.bind (·.get? "check_emitted_events")) ∧
      Taken takeFlag "validation.suggest_names" true v.suggestNames
        (n?.bind (·.get? "suggest_names")) := by
  obtain ⟨a, b, c⟩ := v
  cases n? with
  | none => simp only [Taken, ValidationSettings.standard, ValidationSettings.mk.injEq,
      Option.bind_none]
  | some n =>
      simp only [Taken, takeValidation, takeFields_of_isTable (h n rfl), ok_bind]
      rw [bind_triple_eq_ok_iff ValidationSettings.mk.inj]
      exact and_congr Fields.take_eq_ok_iff
        (and_congr Fields.take_eq_ok_iff Fields.take_eq_ok_iff)

theorem report_taken {r : ReportSettings} :
    Taken takeReport "report" .standard r n? ↔
      Taken takeFormat "report.output_format" .pretty r.outputFormat
        (n?.bind (·.get? "output_format")) ∧
      Taken takeFlag "report.show_suggestions" true r.showSuggestions
        (n?.bind (·.get? "show_suggestions")) := by
  obtain ⟨a, b⟩ := r
  cases n? with
  | none => simp only [Taken, ReportSettings.standard, ReportSettings.mk.injEq, Option.bind_none]
  | some n =>
      simp only [Taken, takeReport, takeFields_of_isTable (h n rfl), ok_bind]
      rw [bind_pair_eq_ok_iff ReportSettings.mk.inj]
      exact and_congr Fields.take_eq_ok_iff Fields.take_eq_ok_iff

theorem loader_taken {l : LoaderSettings} :
    Taken takeLoader "loader" .standard l n? ↔
      Taken takeTexts "loader.skip_prefixes" LoaderSettings.standard.skipPrefixes l.skipPrefixes
        (n?.bind (·.get? "skip_prefixes")) ∧
      Taken takeText "loader.extension" LoaderSettings.standard.extension l.extension
        (n?.bind (·.get? "extension")) := by
  obtain ⟨a, b⟩ := l
  cases n? with
  | none => simp only [Taken, LoaderSettings.standard, LoaderSettings.mk.injEq, Option.bind_none]
  | some n =>
      simp only [Taken, takeLoader, takeFields_of_isTable (h n rfl), ok_bind]
      rw [bind_pair_eq_ok_iff LoaderSettings.mk.inj]
      exact and_congr Fields.take_eq_ok_iff Fields.take_eq_ok_iff

end

/-- The sections of a tree that is a table are read one by one. -/
theorem ofNode_eq_ok_iff_sections {root : Node} (hroot : root.IsTable) {s : Settings} :
    ofNode root = .ok s ↔
      Taken takeValidation "validation" .standard s.validation (root.get? "validation") ∧
        Taken takeReport "report" .standard s.report (root.get? "report") ∧
        Taken takeLoader "loader" .standard s.loader (root.get? "loader") := by
  obtain ⟨v, r, l⟩ := s
  simp only [ofNode, takeFields_of_isTable hroot, ok_bind]
  rw [bind_triple_eq_ok_iff Settings.mk.inj]
  exact and_congr Fields.take_eq_ok_iff
    (and_congr Fields.take_eq_ok_iff Fields.take_eq_ok_iff)

/-- Settings are read out of a tree one by one, if their sections are tables. -/
theorem ofNode_eq_ok_iff {root : Node} (hroot : root.IsTable)
    (hsections : ∀ x ∈ Setting.all, ∀ n ∈ root.get? x.group, n.IsTable) {s : Settings} :
    ofNode root = .ok s ↔ ∀ x ∈ Setting.all, x.Has s (root.under x.group x.name) := by
  have hvalidation : ∀ n ∈ root.get? "validation", n.IsTable :=
    hsections .expectedContext (by simp [Setting.all])
  have hreport : ∀ n ∈ root.get? "report", n.IsTable :=
    hsections .outputFormat (by simp [Setting.all])
  have hloader : ∀ n ∈ root.get? "loader", n.IsTable :=
    hsections .skipPrefixes (by simp [Setting.all])
  rw [ofNode_eq_ok_iff_sections hroot, validation_taken hvalidation, report_taken hreport,
    loader_taken hloader]
  simp only [Setting.all, List.forall_mem_cons]
  constructor
  · rintro ⟨⟨ha, hb, hc⟩, ⟨hd, he⟩, hf, hg⟩
    exact ⟨ha, hb, hc, hd, he, hf, hg, fun _ h => absurd h List.not_mem_nil⟩
  · rintro ⟨ha, hb, hc, hd, he, hf, hg, -⟩
    exact ⟨⟨ha, hb, hc⟩, ⟨hd, he⟩, hf, hg⟩

end DeviceTwin.Settings
