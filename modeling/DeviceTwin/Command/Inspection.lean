import DeviceTwin.Analysis.Statistics
import DeviceTwin.Analysis.Usage
import DeviceTwin.Command.Arguments
import DeviceTwin.Command.Outcome
import DeviceTwin.Command.Verdict
import DeviceTwin.Dtmi.Check
import DeviceTwin.Graph.Dot
import DeviceTwin.Settings.Sources

/-!
# Inspecting descriptions

The commands on descriptions: to validate files and directories, to count elements, to
list what is unused, to check identifiers, and to draw the graph of a state machine.
Each of them reads the settings first. Only drawing into a file writes one.
-/

namespace DeviceTwin

open DeviceTwin.Files

inductive Inspection where
  | validate (paths : List String)
  | statistics (path : String) (asJson : Bool)
  | unused (path : String) (asJson : Bool)
  | identifiers (ids : List String)
  | graph (path : String) (target : Option String)
  deriving DecidableEq, Repr

namespace Inspection

variable [Json.RealReader] [Text.HashOrder] [Settings.FormReader] [Suggestion.Matcher]

def configOption : OptionForm := ⟨"config", some 'c', true⟩

def jsonOption : OptionForm := ⟨"json", none, false⟩

def outputOption : OptionForm := ⟨"output", some 'o', true⟩

/-- The options of each command. -/
def optionsOf : String → Option (List OptionForm)
  | "validate" => some [configOption]
  | "stats" => some [configOption, jsonOption]
  | "unused" => some [configOption, jsonOption]
  | "dtmi" => some [configOption]
  | "graph" => some [configOption, outputOption]
  | _ => none

/-- A command with its arguments. Paths may not be empty. -/
def ofArguments (a : Arguments) : String → Option Inspection
  | "validate" =>
    if a.operands.isEmpty || a.operands.contains "" then none else some (validate a.operands)
  | "stats" =>
    match a.operands with
    | [path] => if path = "" then none else some (statistics path (a.has "json"))
    | _ => none
  | "unused" =>
    match a.operands with
    | [path] => if path = "" then none else some (unused path (a.has "json"))
    | _ => none
  | "dtmi" => if a.operands.isEmpty then none else some (identifiers a.operands)
  | "graph" =>
    match a.operands with
    | [path] =>
      if path = "" || a.value? "output" = some "" then none
      else some (graph path (a.value? "output"))
    | _ => none
  | _ => none

/-- What a command admits in front of an argument that asks for help. -/
def admits (name : String) (a : Arguments) : Bool :=
  name = "dtmi" ||
    !a.operands.contains "" && a.value? "output" ≠ some "" &&
      (name = "validate" || a.operands.length ≤ 1)

def asksHelp (args : List String) : Bool :=
  Arguments.asksProgramHelp [configOption] optionsOf admits args

/-- The settings file asked for and the command. The file may be named before or behind
the name of the command, and the latter counts more. -/
def parse (args : List String) : Option (Option String × Inspection) := do
  let (before, name, rest) ← Arguments.readCommand [configOption] args
  let a ← Arguments.read (← optionsOf name) rest
  return ((a.value? "config").orElse fun _ => before.value? "config", ← ofArguments a name)

def validateOutcome (s : Settings) (verdicts : List (String × Verdict)) : Outcome :=
  let lines := verdicts.flatMap fun v => v.2.lines s.report.showSuggestions v.1
  if verdicts.all fun v => v.2.isValid then
    .success (lines ++ ["", "✅ All models are valid"])
  else
    .failure (lines ++ ["", "❌ Validation failed"])

def statisticsLines (m : Model) : List String :=
  let s := m.statistics
  ["📊 " ++ m.displayName ++ " (" ++ m.id ++ ")", "",
    "  Properties:     " ++ toString s.properties,
    "  Telemetry:      " ++ toString s.telemetry,
    "  Commands:       " ++ toString s.commands,
    "  Events:         " ++ toString s.events,
    "  Relationships:  " ++ toString s.relationships,
    "  States:         " ++ toString s.states,
    "  Transitions:    " ++ toString s.transitions,
    "  Rules:          " ++ toString s.rules,
    "  Goals:          " ++ toString s.goals,
    "  AI models:      " ++ toString s.aiModels,
    "  State machine:  " ++ Text.shownFlag s.hasStateMachine,
    "  Physics:        " ++ Text.shownFlag s.hasPhysics]

def unusedLines (m : Model) : List String :=
  let u := m.unused
  if u.isEmpty then
    ["✅ No unused elements in " ++ m.id]
  else
    u.events.map (fun e => "  ⚠️  unused event: " ++ e) ++
      u.schemas.map fun s => "  ⚠️  unused schema: " ++ s

def jsonLines (s : Settings) (j : Json) : List String :=
  [j.toText s.report.outputFormat.layout]

def identifierLine (id : String) : String :=
  match Dtmi.problem? id.toList with
  | none => "  ✅ " ++ id
  | some p => "  ❌ " ++ id ++ " - " ++ p.message

def identifiersOutcome (ids : List String) : Outcome :=
  if ids.all fun id => (Dtmi.problem? id.toList).isNone then .success (ids.map identifierLine)
  else .failure (ids.map identifierLine)

/-- Writes a graph out, or hands it on. -/
def drawn (dot : String) : Option String → Plan Outcome
  | none => return ⟨0, dot, ""⟩
  | some target => do
    match ← Plan.save target dot with
    | .ok () => return .success ["✅ Exported DOT to: " ++ Text.shown target]
    | .error o => return .error [o.message]

/-- Goes on with the description in a file. -/
def withModel (path : String) (next : Model → Plan Outcome) : Plan Outcome := do
  match ← Model.load path with
  | .ok m => next m
  | .error f => return .error f.trail

def perform (s : Settings) : Inspection → Plan Outcome
  | validate paths => do return validateOutcome s (← Verdict.onPaths s paths)
  | statistics path asJson =>
    withModel path fun m =>
      return .success
        (if asJson then jsonLines s (Statistics.record.write m.statistics) else statisticsLines m)
  | unused path asJson =>
    withModel path fun m =>
      return .success
        (if asJson then jsonLines s (UnusedElements.record.write m.unused) else unusedLines m)
  | identifiers ids => return identifiersOutcome ids
  | graph path target =>
    withModel path fun m =>
      match m.stateMachine with
      | none => return .error [m.id ++ " has no state machine"]
      | some machine => drawn (StateGraph.ofMachine machine).toDot target

/-- Carries out the command that the arguments make. -/
def run (env : Environment) (args : List String) : Plan Outcome :=
  match parse args with
  | none => return if asksHelp args then .help else .usage
  | some (config, inspection) => do
    match ← Settings.load env config with
    | .ok s => inspection.perform s
    | .error f => return .error ["loading configuration", f.message, f.reason]

end Inspection

end DeviceTwin
