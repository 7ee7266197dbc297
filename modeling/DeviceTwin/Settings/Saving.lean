import DeviceTwin.Files.Plan
import DeviceTwin.Settings.Basic
import DeviceTwin.Toml.Writing

/-!
# Settings written

Settings are written as a document with a section for each of their parts, and every
setting is in it.
-/

namespace DeviceTwin.Settings

open DeviceTwin.Files

def sections (s : Settings) : List Toml.Section :=
  [⟨"validation",
      [("expected_context", .text s.validation.expectedContext),
        ("check_emitted_events", .flag s.validation.checkEmittedEvents),
        ("suggest_names", .flag s.validation.suggestNames)]⟩,
    ⟨"report",
      [("output_format", .text s.report.outputFormat.word),
        ("show_suggestions", .flag s.report.showSuggestions)]⟩,
    ⟨"loader",
      [("skip_prefixes", .texts s.loader.skipPrefixes),
        ("extension", .text s.loader.extension)]⟩]

def written (s : Settings) : String :=
  Toml.written s.sections

/-- Puts the settings into a file. -/
def save (s : Settings) (path : String) : Plan (Except Obstacle Unit) :=
  Plan.save path s.written

end DeviceTwin.Settings
