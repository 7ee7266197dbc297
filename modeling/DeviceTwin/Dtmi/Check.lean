import DeviceTwin.Dtmi.Grammar
import DeviceTwin.Json.Record

/-!
# Checking model identifiers

`problem? s` is the first problem of a text that should be a model identifier, in
the order of the text: the scheme, the semicolon before the version, the segments
one by one, the version's numbers one by one. A text without a problem is an
identifier, and `Dtmi` is such a text together with that fact. Read from a document, a
string that is no identifier is refused with the first problem found in it (`Dtmi.read`).
-/

namespace DeviceTwin.Dtmi

open DeviceTwin.Text

inductive Problem where
  | noScheme
  | noSemicolon
  | noPath
  | emptySegment
  | badSegment (segment : List Char)
  | noVersion
  | badMajor (number : List Char)
  | badMinor (number : List Char)
  deriving DecidableEq, Repr

def Problem.message : Problem → String
  | noScheme => "must start with 'dtmi:'"
  | noSemicolon => "missing ';' version separator"
  | noPath => "missing path segments"
  | emptySegment => "empty path segment"
  | badSegment s =>
    "segment '" ++ String.ofList s ++
      "' must start with a letter and contain only letters, digits or '_'"
  | noVersion => "missing version"
  | badMajor n =>
    "major version '" ++ String.ofList n ++
      "' must be a positive integer without leading zeros"
  | badMinor n =>
    "version component '" ++ String.ofList n ++ "' must be a number without leading zeros"

def segmentProblem? (s : List Char) : Option Problem :=
  if s.isEmpty then some .emptySegment
  else if isSegment s then none
  else some (.badSegment s)

def pathProblem? (path : List Char) : Option Problem :=
  if path.isEmpty then some .noPath
  else (pieces ':' path).findSome? segmentProblem?

def minorProblem? (m : List Char) : Option Problem :=
  if isMinor m then none else some (.badMinor m)

def versionProblem? (version : List Char) : Option Problem :=
  if version.isEmpty then some .noVersion
  else
    match pieces '.' version with
    | [] => some .noVersion
    | major :: minors =>
      if isMajor major then minors.findSome? minorProblem? else some (.badMajor major)

def problem? (s : List Char) : Option Problem :=
  match afterBeginning scheme s with
  | none => some .noScheme
  | some rest =>
    match cut ';' rest with
    | none => some .noSemicolon
    | some (path, version) => (pathProblem? path).or (versionProblem? version)

end DeviceTwin.Dtmi

namespace DeviceTwin

/-- A model identifier: a text in which no problem is found. -/
structure Dtmi where
  text : String
  valid : Dtmi.problem? text.toList = none
  deriving DecidableEq

namespace Dtmi

open DeviceTwin.Text

def ofText (s : String) : Except Problem Dtmi :=
  match h : problem? s.toList with
  | none => .ok ⟨s, h⟩
  | some p => .error p

def invalidMessage (id : String) (p : Problem) : String :=
  "Invalid DTMI '" ++ id ++ "': " ++ p.message

/-- What stands between the scheme and the version. -/
def path (d : Dtmi) : List Char :=
  let rest := d.text.toList.drop scheme.length
  match cut ';' rest with
  | some (path, _) => path
  | none => rest

def segments (d : Dtmi) : List String :=
  (pieces ':' d.path).map String.ofList

/-- What stands behind the last semicolon. -/
def version (d : Dtmi) : List Char :=
  match cutLast ';' d.text.toList with
  | some (_, version) => version
  | none => []

/-- The major version, or zero if it takes more than 64 bits. -/
def majorVersion (d : Dtmi) : Nat :=
  let n := decimalValue ((pieces '.' d.version).headD [])
  if n < Number.count64 then n else 0

/-- Identifiers in the order of their texts. -/
def sorted (ds : List Dtmi) : List Dtmi :=
  ds.mergeSort fun a b => decide (a.text ≤ b.text)

/-! ### Written form -/

open DeviceTwin.Json in
/-- A string that is a model identifier; any other string is refused with the first
problem found in it. -/
def read : Reader Dtmi :=
  fun c d => do
    let s ← Reader.string c d
    match Dtmi.ofText s with
    | .ok id => return id
    | .error p => .error (.unplaced (.rejected (Dtmi.invalidMessage s p)))

open DeviceTwin.Json in
def codec : Codec Dtmi := ⟨Dtmi.read, fun id => .text id.text⟩

end Dtmi

end DeviceTwin
