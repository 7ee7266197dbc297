import DeviceTwin.Files.Path
import DeviceTwin.Settings.Node

/-!
# The environment of a run

The environment holds variables and the directory that relative paths start from.
Variables whose names begin with the mark `twin__` are settings: two underscores stand
between section and setting, and capitals do not count. What a value is can only be
guessed from its text.
-/

namespace DeviceTwin

open DeviceTwin.Text DeviceTwin.Number DeviceTwin.Settings

structure Environment where
  values : List (String × String)
  directory : String

namespace Environment

def get? (e : Environment) (name : String) : Option String :=
  lookupEntry name e.values

/-- The directory of the user's own settings. -/
def configHome? (e : Environment) : Option String :=
  match (e.get? "XDG_CONFIG_HOME").filter Files.Path.isAbsolute with
  | some path => some path
  | none =>
    ((e.get? "HOME").filter fun path => path ≠ "").map fun path =>
      Files.Path.joined path ".config"

/-- What begins the name of a variable that is a setting. -/
def mark : String := "twin__"

/-- The setting that a variable is for, with points between the parts of its key. -/
def settingKey? (name : String) : Option String :=
  (afterBeginning mark.toList (lowered name).toList).map fun rest =>
    String.ofList (join '.' (doublePieces '_' rest))

/-- What a text is taken for: a flag, a number, or the text that it is. -/
def guess (value : String) : Scalar :=
  if lowered value = "true" then .flag true
  else if lowered value = "false" then .flag false
  else
    match Extended.integer? value.toList with
    | some n => .integer n
    | none =>
      match Extended.ofText? value.toList with
      | some x => .real x
      | none => .text value

/-- The setting that a variable gives, and its value. -/
def setting? (v : String × String) : Option (String × Node) :=
  (settingKey? v.1).map fun key => (key, .scalar (some "the environment") (guess v.2))

/-- The settings among the variables. Of two for one key the last one counts. -/
def collected (e : Environment) : Table Node :=
  .ofList (e.values.filterMap setting?)

/-- The settings among the variables, as they come out of a hash table. -/
def settings [HashOrder] (e : Environment) : List (String × Node) :=
  HashOrder.order [] e.collected.entries

end Environment

end DeviceTwin
