import DeviceTwin.Files.Plan
import DeviceTwin.Json.Reader
import DeviceTwin.Settings.Environment
import DeviceTwin.Settings.Reading
import DeviceTwin.Toml.Document

/-!
# Where settings come from

Settings are looked for in files at fixed places, in the directory of the user's own
settings, in a file that is asked for, and in the environment, in this order; a later
source goes over an earlier one. Only the file that is asked for has to be there. A file
is found under its path, or under its path with the extension of a known form behind it.
Of the forms, TOML and JSON are read here; what reads the others is a parameter
(`FormReader`), of which nothing is assumed.
-/

namespace DeviceTwin.Settings

open DeviceTwin.Files

/-- The forms of settings files. -/
inductive FileForm where
  | toml
  | json
  | yaml
  | ini
  | ron
  | json5
  deriving DecidableEq, Repr

/-- What reads the files of the forms that are not TOML or JSON. -/
class FormReader where
  parse? (form : FileForm) (origin : String) (content : List Char) :
    Option (List (String × Node))

namespace FileForm

def extensions : FileForm → List String
  | toml => ["toml"]
  | json => ["json"]
  | yaml => ["yaml", "yml"]
  | ini => ["ini"]
  | ron => ["ron"]
  | json5 => ["json5"]

/-- The forms under their names. -/
def all : List (String × FileForm) :=
  [("toml", toml), ("json", json), ("yaml", yaml), ("ini", ini), ("ron", ron), ("json5", json5)]

/-- The form of the file at a path, by its extension. -/
def ofPath? (path : String) : Option FileForm :=
  let ext := (Path.name? path).bind Path.extension?
  (all.find? fun f => ext.any f.2.extensions.contains).map Prod.snd

/-- The entries of the table that a file holds. -/
def parse? [Json.RealReader] [FormReader] (origin : String) (content : List Char) :
    FileForm → Option (List (String × Node))
  | toml => (Toml.ofText? content).map (Node.ofTomlEntries origin)
  | json =>
    match Json.Reader.free.readAll content with
    | .ok ⟨.object entries, _⟩ => some (Node.ofJson origin (.object entries)).entries
    | _ => none
  | form => FormReader.parse? form origin content

end FileForm

/-- The path of a file as messages give it: from the directory that paths start from. -/
def originOf (env : Environment) (path : String) : String :=
  Path.ofSteps
    (Path.between (Path.steps env.directory) (Path.steps (Path.joined env.directory path)))

/-- What is known about a file: its origin, its form and its text. -/
structure Source where
  origin : String
  form : FileForm
  content : String

/-- The first of several paths that has a file. -/
def firstFile? : List (String × FileForm) → Plan (Option (String × FileForm × ByteArray))
  | [] => return none
  | (path, form) :: more => do
    match ← Plan.entry path with
    | some (.file content) => return some (path, form, content)
    | _ => firstFile? more

/-- Paths with the extensions of the known forms behind them. The forms come out of a hash
table. -/
def extended [Text.HashOrder] (path : String) : List (String × FileForm) :=
  (Text.HashOrder.order ["file forms"] FileForm.all).flatMap fun f =>
    f.2.extensions.filterMap fun ext => (Path.withSuffix? path ("." ++ ext)).map (·, f.2)

/-- The source that a file is, if it holds a text. -/
def Source.ofFile (env : Environment) (path : String) (form : FileForm)
    (content : ByteArray) : Except Fault Source :=
  match strict content with
  | some text => .ok ⟨originOf env path, form, text⟩
  | none => .error (.unreadable .notText)

section Load

variable [Json.RealReader] [Text.HashOrder] [FormReader]

/-- The file that a path means. -/
def find (env : Environment) (path : String) : Plan (Except Fault Source) := do
  match ← Plan.entry path with
  | some (.file content) =>
    match FileForm.ofPath? path with
    | some form => return Source.ofFile env path form content
    | none => return .error (.unknownForm (Path.joined env.directory path))
  | _ =>
    match ← firstFile? (extended path) with
    | some (path, form, content) => return Source.ofFile env path form content
    | none => return .error (.notFound path)

/-- The entries of a source that was found. -/
def Source.entries (s : Source) : Except Fault (List (String × Node)) :=
  match s.form.parse? s.origin s.content.toList with
  | some entries => .ok (Node.hashedSource s.origin entries)
  | none => .error (.unparsable s.origin)

/-- What a file says that may be missing. One that holds no text counts as missing. -/
def optionalEntries (env : Environment) (path : String) :
    Plan (Except Fault (List (String × Node))) := do
  match ← find env path with
  | .ok s => return s.entries
  | .error _ => return .ok []

/-- What a file says that has to be there. -/
def requiredEntries (env : Environment) (path : String) :
    Plan (Except Fault (List (String × Node))) := do
  match ← find env path with
  | .ok s => return s.entries
  | .error f => return .error f

/-- The places where settings are looked for, the later ones going over the earlier
ones. -/
def places : List String := ["twin.toml", ".twin.toml", "config/twin.toml"]

/-- The place among the user's own settings. -/
def userPlace? (env : Environment) : Option String :=
  env.configHome?.map fun home => Path.joined home "twin-schemas/twin.toml"

def userEntries (env : Environment) : Plan (Except Fault (List (String × Node))) := do
  match userPlace? env with
  | none => return .ok []
  | some path =>
    match ← Plan.entry path with
    | none => return .ok []
    | some _ => optionalEntries env path

/-- What the sources say, one after the other, up to the first that cannot be read. -/
def sources (env : Environment) (path : Option String) :
    Plan (Except Fault (List (List (String × Node)))) := do
  let fixed ← places.mapM (optionalEntries env)
  let user ← userEntries env
  let asked ← path.toList.mapM (requiredEntries env)
  return (fixed ++ user :: asked ++ [Except.ok env.settings]).mapM id

/-- The settings that sources give together. -/
def ofSources (sources : List (List (String × Node))) : Except Fault Settings :=
  ofNode (sources.foldl Node.putSource .empty)

/-- The settings of a run. -/
def load (env : Environment) (path : Option String) : Plan (Except Fault Settings) := do
  return (← sources env path).bind ofSources

end Load

end DeviceTwin.Settings

namespace DeviceTwin.Concrete

/-- No file of another form can be read. -/
scoped instance noOtherForm : Settings.FormReader := ⟨fun _ _ _ => none⟩

end DeviceTwin.Concrete
