import DeviceTwin.Text.Split

/-!
# Defects

A defect is one thing that is wrong with a description. Checks list what they
find in the order in which they find it; nothing is merged and nothing stops a
check, so the lists of independent checks are put together by appending them.

Every kind of defect has a code that tools may rely on and a message for people.
Only a reference to something undeclared may carry a suggestion, a declared name
that was perhaps meant.
-/

namespace DeviceTwin

/-- What kind of element of a description a defect is about. -/
inductive ElementKind where
  | model
  | property
  | telemetry
  | command
  | event
  | relationship
  | stateMachine
  | state
  | transition
  | trigger
  | action
  | rule
  | schema
  deriving DecidableEq, Repr

namespace ElementKind

def name : ElementKind → String
  | model => "Model"
  | property => "Property"
  | telemetry => "Telemetry"
  | command => "Command"
  | event => "Event"
  | relationship => "Relationship"
  | stateMachine => "StateMachine"
  | state => "State"
  | transition => "Transition"
  | trigger => "Trigger"
  | action => "Action"
  | rule => "Rule"
  | schema => "Schema"

def all : List ElementKind :=
  [model, property, telemetry, command, event, relationship, stateMachine, state, transition,
    trigger, action, rule, schema]

end ElementKind

inductive DefectKind where
  | invalidReference
  | duplicateName
  | invalidStateTransition
  | unreachableStates
  | missingRequiredField
  | invalidFieldValue
  | invalidContext
  | invalidDtmi
  | circularReference
  deriving DecidableEq, Repr

namespace DefectKind

def name : DefectKind → String
  | invalidReference => "InvalidReference"
  | duplicateName => "DuplicateName"
  | invalidStateTransition => "InvalidStateTransition"
  | unreachableStates => "UnreachableStates"
  | missingRequiredField => "MissingRequiredField"
  | invalidFieldValue => "InvalidFieldValue"
  | invalidContext => "InvalidContext"
  | invalidDtmi => "InvalidDtmi"
  | circularReference => "CircularReference"

def all : List DefectKind :=
  [invalidReference, duplicateName, invalidStateTransition, unreachableStates,
    missingRequiredField, invalidFieldValue, invalidContext, invalidDtmi, circularReference]

def code : DefectKind → String
  | invalidContext => "E001"
  | invalidDtmi => "E002"
  | missingRequiredField => "E003"
  | invalidFieldValue => "E004"
  | duplicateName => "E005"
  | invalidReference => "E006"
  | invalidStateTransition => "E007"
  | unreachableStates => "E008"
  | circularReference => "E009"

end DefectKind

inductive Defect where
  | invalidReference (sourceKind : ElementKind) (sourceName : String) (targetKind : ElementKind)
    (targetName : String) (suggestion : Option String)
  | duplicateName (elementKind : ElementKind) (name : String)
  | invalidStateTransition (source target reason : String)
  | unreachableStates (initial : String) (states : List String)
  | missingRequiredField (field : String)
  | invalidFieldValue (field expected actual : String)
  | invalidContext (expected actual : String)
  | invalidDtmi (id reason : String)
  | circularReference (path : List String)
  deriving DecidableEq, Repr

namespace Defect

def kind : Defect → DefectKind
  | invalidReference .. => .invalidReference
  | duplicateName .. => .duplicateName
  | invalidStateTransition .. => .invalidStateTransition
  | unreachableStates .. => .unreachableStates
  | missingRequiredField .. => .missingRequiredField
  | invalidFieldValue .. => .invalidFieldValue
  | invalidContext .. => .invalidContext
  | invalidDtmi .. => .invalidDtmi
  | circularReference .. => .circularReference

def code (d : Defect) : String :=
  d.kind.code

def question : Option String → String
  | none => ""
  | some name => " (did you mean '" ++ name ++ "'?)"

def message : Defect → String
  | invalidReference sourceKind sourceName targetKind targetName suggestion =>
    sourceKind.name ++ " '" ++ sourceName ++ "' references unknown " ++ targetKind.name ++
      " '" ++ targetName ++ "'" ++ question suggestion
  | duplicateName elementKind name =>
    "Duplicate " ++ elementKind.name ++ " name '" ++ name ++ "'"
  | invalidStateTransition source target reason =>
    "Invalid transition '" ++ source ++ "' -> '" ++ target ++ "': " ++ reason
  | unreachableStates initial states =>
    "Unreachable states from initial state '" ++ initial ++ "': " ++
      Text.interpose ", " states
  | missingRequiredField field => "Missing required field '" ++ field ++ "'"
  | invalidFieldValue field expected actual =>
    "Invalid value for '" ++ field ++ "': expected " ++ expected ++ ", got '" ++ actual ++ "'"
  | invalidContext expected actual =>
    "Invalid @context: expected '" ++ expected ++ "', got '" ++ actual ++ "'"
  | invalidDtmi id reason => "Invalid DTMI '" ++ id ++ "': " ++ reason
  | circularReference path => "Circular reference: " ++ Text.interpose " -> " path

/-- Code and message on one line. -/
def line (d : Defect) : String :=
  "[" ++ d.code ++ "] " ++ d.message

def withoutSuggestion : Defect → Defect
  | invalidReference sourceKind sourceName targetKind targetName _ =>
    invalidReference sourceKind sourceName targetKind targetName none
  | d => d

@[simp] theorem kind_withoutSuggestion (d : Defect) : d.withoutSuggestion.kind = d.kind := by
  cases d <;> rfl

end Defect

/-- Defects in the order in which they were found. -/
abbrev Defects := List Defect

namespace Defects

def ofKind (kind : DefectKind) (ds : Defects) : Defects :=
  ds.filter fun d => d.kind == kind

def withoutSuggestions (ds : Defects) : Defects :=
  ds.map Defect.withoutSuggestion

/-- One line for each defect and, behind an empty line, their number. Without
defects there is nothing to report. -/
def report (ds : Defects) : String :=
  if ds.isEmpty then ""
  else String.join (ds.map fun d => d.line ++ "\n") ++ "\n" ++ toString ds.length ++
    " defect(s)\n"

end Defects

end DeviceTwin
