import DeviceTwin.Files.Disk
import DeviceTwin.Settings.Node
import DeviceTwin.Text.Shown

/-!
# What can be wrong with settings

A file of settings is missing, has no known form, or cannot be read or parsed; or a setting has
a value that cannot be taken for what the setting wants. A value in the wrong place is
told with the key and the source that it comes from, as far as they are known.
-/

namespace DeviceTwin.Settings

inductive Fault where
  | notFound (path : String)
  | unknownForm (path : String)
  | unreadable (obstacle : Files.Obstacle)
  | unparsable (path : String)
  | wrongType (found wanted key : String) (origin : Option String)
  | wrongShape (found wanted : String)
  | unknownWord (choice word : String)
  | noWord (choice : String)
  deriving DecidableEq, Repr

def quoted (s : String) : String :=
  "\"" ++ s ++ "\""

def Fault.reason : Fault → String
  | notFound path => "configuration file " ++ quoted path ++ " not found"
  | unknownForm path =>
    "configuration file " ++ quoted path ++ " is not of a registered file format"
  | unreadable o => o.message
  | unparsable path => "unparsable file " ++ path
  | wrongType found wanted key origin =>
    "invalid type: " ++ found ++ ", expected " ++ wanted ++ " for key `" ++ key ++ "`" ++
      (match origin with
      | none => ""
      | some origin => " in " ++ origin)
  | wrongShape found wanted => "invalid type: " ++ found ++ ", expected " ++ wanted
  | unknownWord choice word =>
    "enum " ++ choice ++ " does not have variant constructor " ++ word
  | noWord choice =>
    "value of enum " ++ choice ++
      " should be represented by either string or table with exactly one key"

def Fault.message (f : Fault) : String :=
  "Config error: " ++ f.reason

/-- A value as messages about its type name it. -/
def Scalar.found : Scalar → String
  | nothing => "unit value"
  | flag b => "boolean `" ++ Text.shownFlag b ++ "`"
  | integer n => "integer `" ++ toString n ++ "`"
  | real x => "floating point `" ++ x.pointed ++ "`"
  | text s => "string " ++ Text.shown s

def Node.found : Node → String
  | scalar _ value => value.found
  | list .. => "sequence"
  | table .. => "map"

end DeviceTwin.Settings
