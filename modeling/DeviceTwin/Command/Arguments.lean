import DeviceTwin.Text.Split

/-!
# Arguments of a command line

Arguments are options and operands. An option has a long name, and may have a short one
of a single letter; its value, if it takes one, is the next argument or is attached to
the name. Behind two hyphens every argument is an operand. No option may be given twice.

`Arguments.read` takes the arguments of one command apart; `Arguments.readCommand` stops
at the first operand, which names a command. An argument that asks for help ends the reading
(`Arguments.asksHelp`), so nothing behind it counts, but what stands in front of it has to be
in order.
-/

namespace DeviceTwin

open DeviceTwin.Text

/-- An option that a command knows. -/
structure OptionForm where
  long : String
  short : Option Char
  takesValue : Bool
  deriving DecidableEq, Repr

/-- One argument on its own. -/
inductive Argument where
  | operand (s : String)
  | option (name : String) (value : Option String)
  | needsValue (name : String)
  | unknown
  deriving DecidableEq, Repr

namespace Argument

/-- An argument that cannot be the value of an option before it. -/
def isHyphened (s : String) : Bool :=
  s ≠ "-" && s.toList.head? == some '-'

/-- An option and what is attached to its name. -/
def ofForm (form : Option OptionForm) (attached : Option String) : Argument :=
  match form, attached with
  | none, _ => unknown
  | some f, none => if f.takesValue then needsValue f.long else option f.long none
  | some f, some v => if f.takesValue then option f.long (some v) else unknown

/-- What is attached to the letter of an option: an equals sign may stand between. -/
def attachment? : List Char → Option String
  | [] => none
  | '=' :: v => some (String.ofList v)
  | v => some (String.ofList v)

def of (forms : List OptionForm) (s : String) : Argument :=
  match s.toList with
  | '-' :: '-' :: name =>
    let (name, value) :=
      match cut '=' name with
      | some (name, value) => (name, some (String.ofList value))
      | none => (name, none)
    ofForm (forms.find? fun f => f.long.toList = name) value
  | '-' :: letter :: rest => ofForm (forms.find? fun f => f.short = some letter) (attachment? rest)
  | _ => operand s

/-- An argument that asks for help. -/
def asksHelp (s : String) : Bool :=
  s = "--help" || ['-', 'h'].isPrefixOf s.toList

end Argument

/-- The options given, with their values, and the operands. -/
structure Arguments where
  options : List (String × Option String)
  operands : List String
  deriving DecidableEq, Repr

namespace Arguments

def has (a : Arguments) (name : String) : Bool :=
  a.options.any fun o => o.1 == name

def value? (a : Arguments) (name : String) : Option String :=
  (a.options.find? fun o => o.1 == name).bind (·.2)

def addOption (name : String) (value : Option String) (a : Arguments) : Arguments :=
  { a with options := (name, value) :: a.options }

def addOperand (s : String) (a : Arguments) : Arguments :=
  { a with operands := s :: a.operands }

/-- Whether no option comes twice. -/
def isSingle (a : Arguments) : Bool :=
  decide (a.options.map (·.1)).Nodup

def scan (forms : List OptionForm) : List String → Option Arguments
  | [] => some ⟨[], []⟩
  | s :: rest =>
    if s = "--" then some ⟨[], rest⟩
    else
      match Argument.of forms s with
      | .operand s => (scan forms rest).map (addOperand s)
      | .option name value => (scan forms rest).map (addOption name value)
      | .unknown => none
      | .needsValue name =>
        match rest with
        | [] => none
        | v :: rest =>
          if Argument.isHyphened v then none
          else (scan forms rest).map (addOption name (some v))

/-- The options and operands of a command; none if an argument fits nowhere. -/
def read (forms : List OptionForm) (args : List String) : Option Arguments :=
  (scan forms args).filter isSingle

/-- The options in front of a command, its name, and the arguments behind it. -/
def scanCommand (forms : List OptionForm) :
    List String → Option (List (String × Option String) × String × List String)
  | [] => none
  | s :: rest =>
    match Argument.of forms s with
    | .operand s => some ([], s, rest)
    | .option name value =>
      (scanCommand forms rest).map fun (os, c, rest) => ((name, value) :: os, c, rest)
    | .unknown => none
    | .needsValue name =>
      match rest with
      | [] => none
      | v :: rest =>
        if Argument.isHyphened v then none
        else
          (scanCommand forms rest).map fun (os, c, rest) => ((name, some v) :: os, c, rest)

def readCommand (forms : List OptionForm) (args : List String) :
    Option (Arguments × String × List String) :=
  match scanCommand forms args with
  | none => none
  | some (options, command, rest) =>
    let a : Arguments := ⟨options, []⟩
    if a.isSingle then some (a, command, rest) else none

/-- Whether arguments ask for help, where an argument may do so, and those in front of it can be
read and are admitted. -/
def asksHelp (forms : List OptionForm) (admits : Arguments → Bool) (args : List String) : Bool :=
  let before := args.takeWhile fun s => !Argument.asksHelp s
  before.length < args.length && !before.contains "--" && (read forms before).any admits

/-- Whether the arguments of a program ask for help: in front of a command, behind it, or by the
command that gives help, on the program or on one of its commands. -/
def asksProgramHelp (forms : List OptionForm) (optionsOf : String → Option (List OptionForm))
    (admits : String → Arguments → Bool) (args : List String) : Bool :=
  asksHelp forms (fun a => a.operands.isEmpty) args ||
    match readCommand forms args with
    | some (_, "help", []) => true
    | some (_, "help", [name]) => name = "help" || (optionsOf name).isSome
    | some (_, name, rest) =>
      match optionsOf name with
      | some forms => asksHelp forms (admits name) rest
      | none => false
    | none => false

end Arguments

end DeviceTwin
