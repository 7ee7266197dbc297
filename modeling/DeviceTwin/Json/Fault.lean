import DeviceTwin.Json.Place
import DeviceTwin.Number.Decimal
import DeviceTwin.Text.Shown

/-!
# What can be wrong with a document

A fault is a cause and, where the reader knows it, a place. The causes fall into
three kinds: the text is not JSON (`syntax`), it ends too early (`eof`), or it is
JSON of the wrong form (`data`). The wording is kept in `Cause.message`.
-/

namespace DeviceTwin.Json

open DeviceTwin.Number

/-- A value as a message about its type names it. -/
inductive Found where
  | null
  | boolean (b : Bool)
  | integer (n : Int)
  | real (x : Double)
  | text (s : String)
  | sequence
  | map
  | unitVariant
  deriving DecidableEq, Repr

inductive Kind where
  | syntaxError
  | endOfText
  | data
  deriving DecidableEq, Repr

def Kind.name : Kind → String
  | .syntaxError => "syntax"
  | .endOfText => "eof"
  | .data => "data"

inductive Cause where
  | endInValue
  | endInString
  | endInList
  | endInObject
  | expectedValue
  | expectedWord
  | invalidNumber
  | numberOutOfRange
  | expectedColon
  | expectedCommaOrBrace
  | expectedCommaOrBracket
  | trailingComma
  | keyNotText
  | invalidEscape
  | endOfHexEscape
  | loneSurrogate
  | controlCharacter
  | trailingCharacters
  | tooDeep
  | wrongType (found : Found) (wanted : String)
  | outOfRange (found : Found) (wanted : String)
  | wrongLength (length : Nat) (wanted : String)
  | missingField (key : String)
  | duplicateField (key : String)
  | unknownVariant (name : String) (known : List String)
  | noFormFits (type : String)
  | rejected (message : String)
  deriving DecidableEq, Repr

/-- A number as it stands in a document: with a point up to `1e16` and down to
`1e-5`, and with an exponent outside. -/
def realText (x : Double) : String :=
  let d := Decimal.shortest x
  String.ofList
    (x.signed
      (if x.isZero then ['0', '.', '0']
        else if -5 < d.point ∧ d.point ≤ 16 then d.pointed
        else d.scientific))

def Found.message : Found → String
  | .null => "null"
  | .boolean b => "boolean `" ++ Text.shownFlag b ++ "`"
  | .integer n => "integer `" ++ toString n ++ "`"
  | .real x => "floating point `" ++ realText x ++ "`"
  | .text s => "string " ++ Text.shown s
  | .sequence => "sequence"
  | .map => "map"
  | .unitVariant => "unit variant"

/-- The known names of a choice as a message lists them. -/
def alternatives : List String → String
  | [] => "there are no variants"
  | [a] => "expected `" ++ a ++ "`"
  | [a, b] => "expected `" ++ a ++ "` or `" ++ b ++ "`"
  | names =>
    "expected one of " ++ Text.interpose ", " (names.map fun a => "`" ++ a ++ "`")

namespace Cause

def kind : Cause → Kind
  | endInValue | endInString | endInList | endInObject => .endOfText
  | expectedValue | expectedWord | invalidNumber | numberOutOfRange | expectedColon
  | expectedCommaOrBrace | expectedCommaOrBracket | trailingComma | keyNotText
  | invalidEscape | endOfHexEscape | loneSurrogate | controlCharacter
  | trailingCharacters | tooDeep => .syntaxError
  | _ => .data

def message : Cause → String
  | endInValue => "EOF while parsing a value"
  | endInString => "EOF while parsing a string"
  | endInList => "EOF while parsing a list"
  | endInObject => "EOF while parsing an object"
  | expectedValue => "expected value"
  | expectedWord => "expected ident"
  | invalidNumber => "invalid number"
  | numberOutOfRange => "number out of range"
  | expectedColon => "expected `:`"
  | expectedCommaOrBrace => "expected `,` or `\x7d`"
  | expectedCommaOrBracket => "expected `,` or `]`"
  | trailingComma => "trailing comma"
  | keyNotText => "key must be a string"
  | invalidEscape => "invalid escape"
  | endOfHexEscape => "unexpected end of hex escape"
  | loneSurrogate => "lone leading surrogate in hex escape"
  | controlCharacter =>
    "control character (\\u0000-\\u001F) found while parsing a string"
  | trailingCharacters => "trailing characters"
  | tooDeep => "recursion limit exceeded"
  | wrongType found wanted => "invalid type: " ++ found.message ++ ", expected " ++ wanted
  | outOfRange found wanted => "invalid value: " ++ found.message ++ ", expected " ++ wanted
  | wrongLength n wanted => "invalid length " ++ toString n ++ ", expected " ++ wanted
  | missingField key => "missing field `" ++ key ++ "`"
  | duplicateField key => "duplicate field `" ++ key ++ "`"
  | unknownVariant name known => "unknown variant `" ++ name ++ "`, " ++ alternatives known
  | noFormFits type => "data did not match any variant of untagged enum " ++ type
  | rejected message => message

end Cause

structure Fault where
  cause : Cause
  place : Option Place
  deriving DecidableEq, Repr

namespace Fault

/-- A fault whose place is found out later by the record around it. -/
def unplaced (cause : Cause) : Fault := ⟨cause, none⟩

/-- A fault at what is left of the text. -/
def here (cause : Cause) (rest : List Char) : Fault := ⟨cause, some (.here rest)⟩

/-- A fault seen in the next octet. -/
def behindNext (cause : Cause) (rest : List Char) : Fault :=
  ⟨cause, some (.behindNext rest)⟩

/-- Gives a place to a fault that has none. -/
def settle (place : Place) (f : Fault) : Fault :=
  { f with place := f.place.orElse fun _ => some place }

/-- The message with line and column, for a fault in a known text. -/
def located (text : List Char) (f : Fault) : String :=
  match f.place with
  | none => f.cause.message
  | some p =>
    let (line, column) := p.lineColumn text
    f.cause.message ++ " at line " ++ toString line ++ " column " ++ toString column

end Fault

/-- Places the fault of a result. -/
def settled {α : Type} (place : Place) : Except Fault α → Except Fault α
  | .ok a => .ok a
  | .error f => .error (f.settle place)

@[simp] theorem settled_ok {α : Type} (place : Place) (a : α) :
    settled place (.ok a) = .ok a := rfl

@[simp] theorem settled_eq_ok_iff {α : Type} {place : Place} {r : Except Fault α} {a : α} :
    settled place r = .ok a ↔ r = .ok a := by
  cases r <;> simp [settled]

end DeviceTwin.Json
