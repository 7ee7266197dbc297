import DeviceTwin.Settings.Basic
import DeviceTwin.Settings.Fault

/-!
# Settings out of a tree

The tree that the sources gave is read into the settings. A setting that is not there
has its default. Scalars are taken for each other as far as that makes sense: flags and
numbers are texts when a text is wanted, and numbers and a few words are flags when a
flag is wanted.
-/

namespace DeviceTwin.Settings

open DeviceTwin.Text

/-- The value of a setting, known by its key, in a node. -/
abbrev Taking (α : Type) := String → Node → Except Fault α

/-- A scalar as a text. -/
def Scalar.text? : Scalar → Option String
  | nothing => none
  | flag b => some (Text.shownFlag b)
  | integer n => some (toString n)
  | real x => some x.plain
  | text s => some s

/-- The words for the two flags. -/
def flagWord? (s : String) : Option Bool :=
  if ["1", "true", "on", "yes"].contains s then some true
  else if ["0", "false", "off", "no"].contains s then some false
  else none

def Scalar.flag? : Scalar → Option Bool
  | nothing => none
  | flag b => some b
  | integer n => some (n ≠ 0)
  | real x => some (!x.isZero)
  | text s => flagWord? (lowered s)

/-- The words of a text are compared and told in small letters. -/
def Scalar.small : Scalar → Scalar
  | text s => text (lowered s)
  | value => value

def takeText : Taking String := fun key n =>
  let refused := .error (.wrongType n.found "a string" key n.origin)
  match n with
  | .scalar _ value => (value.text?.map .ok).getD refused
  | _ => refused

def takeFlag : Taking Bool := fun key n =>
  match n with
  | .scalar origin value =>
    (value.flag?.map .ok).getD
      (.error (.wrongType value.small.found "a boolean" key origin))
  | _ => .error (.wrongType n.found "a boolean" key n.origin)

/-- The key of an item of a list. -/
def itemKey (key : String) (i : Nat) : String :=
  key ++ "[" ++ toString i ++ "]"

def takeTexts : Taking (List String) := fun key n =>
  match n with
  | .list _ items => items.zipIdx.mapM fun (item, i) => takeText (itemKey key i) item
  | _ => .error (.wrongShape n.found "a sequence")

/-- The word that a node stands for: a text, or the only key of a table. -/
def word? : Node → Option String
  | .scalar _ (.text s) => some s
  | .table _ [(key, _)] => some key
  | _ => none

def takeFormat : Taking OutputFormat := fun _ n =>
  match word? n with
  | none => .error (.noWord "OutputFormat")
  | some w =>
    match [OutputFormat.pretty, .compact].find? fun f => f.word = lowered w with
    | some f => .ok f
    | none => .error (.unknownWord "OutputFormat" w)

/-- Where the values of a record stand: under their keys, or in the order of the
record. -/
inductive Fields where
  | keyed (key : String) (entries : List (String × Node))
  | ordered (key : String) (items : List Node)

/-- The key of a setting in a section. -/
def innerKey (key name : String) : String :=
  if key.isEmpty then name else key ++ "." ++ name

/-- The value of one field, given by its place in the record and its name. -/
def Fields.take {α : Type} (f : Fields) (place : Nat) (name : String) (taking : Taking α)
    (default : α) : Except Fault α :=
  match f with
  | keyed key entries =>
    match lookupEntry name entries with
    | some n => taking (innerKey key name) n
    | none => .ok default
  | ordered key items =>
    match items[place]? with
    | some n => taking (itemKey key place) n
    | none => .ok default

def takeFields (title key : String) (n : Node) : Except Fault Fields :=
  match n with
  | .table _ entries => .ok (.keyed key entries)
  | .list _ items => .ok (.ordered key items)
  | .scalar _ value => .error (.wrongShape value.found title)

def takeValidation : Taking ValidationSettings := fun key n => do
  let f ← takeFields "struct ValidationConfig" key n
  let s := ValidationSettings.standard
  return ⟨← f.take 0 "expected_context" takeText s.expectedContext,
    ← f.take 1 "check_emitted_events" takeFlag s.checkEmittedEvents,
    ← f.take 2 "suggest_names" takeFlag s.suggestNames⟩

def takeReport : Taking ReportSettings := fun key n => do
  let f ← takeFields "struct ReportConfig" key n
  let s := ReportSettings.standard
  return ⟨← f.take 0 "output_format" takeFormat s.outputFormat,
    ← f.take 1 "show_suggestions" takeFlag s.showSuggestions⟩

def takeLoader : Taking LoaderSettings := fun key n => do
  let f ← takeFields "struct LoaderConfig" key n
  let s := LoaderSettings.standard
  return ⟨← f.take 0 "skip_prefixes" takeTexts s.skipPrefixes,
    ← f.take 1 "extension" takeText s.extension⟩

/-- The settings that a tree holds. -/
def ofNode (n : Node) : Except Fault Settings := do
  let f ← takeFields "struct TwinConfig" "" n
  return ⟨← f.take 0 "validation" takeValidation .standard,
    ← f.take 1 "report" takeReport .standard, ← f.take 2 "loader" takeLoader .standard⟩

end DeviceTwin.Settings
