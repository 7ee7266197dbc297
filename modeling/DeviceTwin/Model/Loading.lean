import DeviceTwin.Files.Plan
import DeviceTwin.Model.Form.Basic
import DeviceTwin.Settings.Basic

/-!
# Descriptions in files

`Model.load` reads the description in one file. `Model.loadDirectory` reads every
description below a directory and gives each file its own outcome, so a broken file
hides no other one; which files hold descriptions is decided on their addresses alone
(`LoaderSettings.selects`).
-/

namespace DeviceTwin

open DeviceTwin.Files DeviceTwin.Json

/-- Why there is no description in a file. -/
inductive LoadFault where
  | notFound (path : String)
  | unreadable (obstacle : Obstacle)
  | malformed (content : String) (fault : Fault)
  deriving DecidableEq, Repr

namespace LoadFault

/-- The reason without the words that say of which kind it is. -/
def reason : LoadFault → String
  | notFound path => path
  | unreadable o => o.message
  | malformed content f => f.located content.toList

def message : LoadFault → String
  | notFound path => "Model not found: " ++ path
  | unreadable o => "IO error: " ++ o.message
  | malformed content f => "JSON error: " ++ f.located content.toList

/-- The message followed by what caused it, if that is a fault of its own. -/
def trail : LoadFault → List String
  | notFound path => [message (notFound path)]
  | f => [f.message, f.reason]

end LoadFault

namespace Model

def ofContent [RealReader] (content : ByteArray) : Except LoadFault Model :=
  match strict content with
  | none => .error (.unreadable .notText)
  | some t =>
    match ofText t with
    | .ok m => .ok m
    | .error f => .error (.malformed t f)

/-- The description in what stands at a path. -/
def ofEntry [RealReader] (path : String) : Option Entry → Except LoadFault Model
  | none => .error (.notFound path)
  | some (.directory _) => .error (.unreadable .isDirectory)
  | some (.file content) => ofContent content

def load [RealReader] (path : String) : Plan (Except LoadFault Model) := do
  return ofEntry path (← Plan.entry path)

end Model

/-- Whether the file at an address is to be read: its extension is the wanted one and
its path begins with nothing that is to be skipped. A backslash counts as a slash. -/
def LoaderSettings.selects (s : LoaderSettings) (address : Address) : Bool :=
  let path := ((Path.ofSteps address).toList.map fun c => if c = '\\' then '/' else c)
  (address.getLast?.bind Path.extension?) = some s.extension &&
    !s.skipPrefixes.any fun p => p.toList.isPrefixOf path

/-- A file that was read, and what came of it. -/
structure LoadedModel where
  address : Address
  outcome : Except LoadFault Model

namespace LoadedModel

def path (l : LoadedModel) : String :=
  Path.ofSteps l.address

end LoadedModel

namespace Model

/-- The descriptions below an entry. -/
def allIn [RealReader] (s : LoaderSettings) (e : Entry) : List LoadedModel :=
  (e.files.filter fun f => s.selects f.1).map fun f => ⟨f.1, ofContent f.2⟩

def loadDirectory [RealReader] (s : LoaderSettings) (path : String) :
    Plan (Except LoadFault (List LoadedModel)) := do
  match ← Plan.entry path with
  | some (.directory entries) => return .ok (allIn s (.directory entries))
  | _ => return .error (.notFound path)

end Model

end DeviceTwin
