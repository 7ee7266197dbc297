import DeviceTwin.Command.Arguments
import DeviceTwin.Command.Outcome
import DeviceTwin.Settings.Form
import DeviceTwin.Settings.Saving
import DeviceTwin.Settings.Sources

/-!
# Looking after settings

The commands on settings: to show the ones that hold, to write a file with the default
ones, and to check that they can be read.
-/

namespace DeviceTwin

open DeviceTwin.Files

/-- The forms in which settings are shown. -/
inductive ShowForm where
  | listing
  | toml
  | json
  deriving DecidableEq, Repr

inductive Configuration where
  | show (config : Option String) (form : ShowForm)
  | init (target : String)
  | validate (config : Option String)
  deriving DecidableEq, Repr

namespace Configuration

variable [Json.RealReader] [Text.HashOrder] [Settings.FormReader]

def configOption : OptionForm := ⟨"config", some 'c', true⟩

def optionsOf : String → Option (List OptionForm)
  | "show" => some [configOption, ⟨"toml", none, false⟩, ⟨"json", none, false⟩]
  | "init" => some [⟨"output", some 'o', true⟩]
  | "validate" => some [configOption]
  | _ => none

/-- Where default settings are written, if no place is named. -/
def defaultTarget : String := "twin.toml"

def ofArguments (a : Arguments) : String → Option Configuration
  | "show" =>
    let form : ShowForm :=
      if a.has "json" then .json else if a.has "toml" then .toml else .listing
    some (.show (a.value? "config") form)
  | "init" => some (init ((a.value? "output").getD defaultTarget))
  | "validate" => some (validate (a.value? "config"))
  | _ => none

def parse (args : List String) : Option Configuration := do
  let (_, name, rest) ← Arguments.readCommand [] args
  let a ← Arguments.read (← optionsOf name) rest
  if a.operands.isEmpty then ofArguments a name else none

def asksHelp (args : List String) : Bool :=
  Arguments.asksProgramHelp [] optionsOf (fun _ a => a.operands.isEmpty) args

def listing (s : Settings) : List String :=
  ["📋 Twin Validator Configuration", "", "Validation:",
    "  Expected context: " ++ s.validation.expectedContext,
    "  Check emitted events: " ++ Text.shownFlag s.validation.checkEmittedEvents,
    "  Suggest names: " ++ Text.shownFlag s.validation.suggestNames, "", "Report:",
    "  Format: " ++ s.report.outputFormat.title,
    "  Show suggestions: " ++ Text.shownFlag s.report.showSuggestions, "", "Loader:",
    "  Extension: " ++ s.loader.extension, "  Skip:"] ++
    s.loader.skipPrefixes.map fun p => "    - " ++ p

def shown (s : Settings) : ShowForm → List String
  | .listing => listing s
  | .toml => [s.written]
  | .json => [(Settings.record.write s).toText .pretty]

def perform (env : Environment) : Configuration → Plan Outcome
  | .show config form => do
    match ← Settings.load env config with
    | .ok s => return .success (shown s form)
    | .error f => return .error [f.message]
  | init target => do
    match ← Settings.standard.save target with
    | .ok () => return .success ["✅ Created config file: " ++ target]
    | .error o => return .error ["IO error: " ++ o.message]
  | validate config => do
    match ← Settings.load env config with
    | .ok s =>
      return .success
        ["✅ Configuration is valid", "   Expected context: " ++ s.validation.expectedContext,
          "   Output format: " ++ s.report.outputFormat.title]
    | .error f => return .fault ("❌ Configuration error: " ++ f.message)

/-- Carries out the command that the arguments make. -/
def run (env : Environment) (args : List String) : Plan Outcome :=
  match parse args with
  | none => return if asksHelp args then .help else .usage
  | some c => c.perform env

end Configuration

end DeviceTwin
