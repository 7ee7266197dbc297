import DeviceTwin.Json.Writing
import DeviceTwin.Model.Basic

/-!
# Settings

There are seven settings in three sections: how descriptions are checked, how
results are reported, and which files of a directory are read. Every setting has
a default.
-/

namespace DeviceTwin

structure ValidationSettings where
  expectedContext : String
  checkEmittedEvents : Bool
  suggestNames : Bool
  deriving DecidableEq, Repr

def ValidationSettings.standard : ValidationSettings :=
  ⟨Model.standardContext, true, true⟩

inductive OutputFormat where
  | pretty
  | compact
  deriving DecidableEq, Repr

namespace OutputFormat

def layout : OutputFormat → Json.Layout
  | pretty => .pretty
  | compact => .compact

/-- The word for a format in files. -/
def word : OutputFormat → String
  | pretty => "pretty"
  | compact => "compact"

/-- The word for a format in listings. -/
def title : OutputFormat → String
  | pretty => "Pretty"
  | compact => "Compact"

end OutputFormat

structure ReportSettings where
  outputFormat : OutputFormat
  showSuggestions : Bool
  deriving DecidableEq, Repr

def ReportSettings.standard : ReportSettings :=
  ⟨.pretty, true⟩

structure LoaderSettings where
  skipPrefixes : List String
  extension : String
  deriving DecidableEq, Repr

def LoaderSettings.standard : LoaderSettings :=
  ⟨["target/", ".git/", "node_modules/"], "json"⟩

structure Settings where
  validation : ValidationSettings
  report : ReportSettings
  loader : LoaderSettings
  deriving DecidableEq, Repr

def Settings.standard : Settings :=
  ⟨.standard, .standard, .standard⟩

end DeviceTwin
