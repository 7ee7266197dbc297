import DeviceTwin.Json.Record
import DeviceTwin.Settings.Basic

/-!
# The written form of settings
-/

namespace DeviceTwin

open DeviceTwin.Json

def ValidationSettings.record : Record ValidationSettings where
  title := "struct ValidationConfig"
  fields :=
    [.withDefault "expected_context" Model.standardContext .string,
      .withDefault "check_emitted_events" true .boolean,
      .withDefault "suggest_names" true .boolean]
  build := fun (expectedContext, checkEmittedEvents, suggestNames, ()) =>
    ⟨expectedContext, checkEmittedEvents, suggestNames⟩
  parts s := (s.expectedContext, s.checkEmittedEvents, s.suggestNames, ())

namespace OutputFormat

def choice : Choice OutputFormat :=
  ⟨[("pretty", .nothing pretty), ("compact", .nothing compact)]⟩

def codec : Codec OutputFormat := ⟨choice.read, fun f => .text f.word⟩

end OutputFormat

def ReportSettings.record : Record ReportSettings where
  title := "struct ReportConfig"
  fields :=
    [.withDefault "output_format" .pretty OutputFormat.codec,
      .withDefault "show_suggestions" true .boolean]
  build := fun (outputFormat, showSuggestions, ()) => ⟨outputFormat, showSuggestions⟩
  parts s := (s.outputFormat, s.showSuggestions, ())

def LoaderSettings.record : Record LoaderSettings where
  title := "struct LoaderConfig"
  fields :=
    [.withDefault "skip_prefixes" LoaderSettings.standard.skipPrefixes Codec.string.list,
      .withDefault "extension" LoaderSettings.standard.extension .string]
  build := fun (skipPrefixes, extension, ()) => ⟨skipPrefixes, extension⟩
  parts s := (s.skipPrefixes, s.extension, ())

def Settings.record : Record Settings where
  title := "struct TwinConfig"
  fields :=
    [.withDefault "validation" .standard ValidationSettings.record.codec,
      .withDefault "report" .standard ReportSettings.record.codec,
      .withDefault "loader" .standard LoaderSettings.record.codec]
  build := fun (validation, report, loader, ()) => ⟨validation, report, loader⟩
  parts s := (s.validation, s.report, s.loader, ())

end DeviceTwin
