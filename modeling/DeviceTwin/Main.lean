import DeviceTwin.Command.Configuration
import DeviceTwin.Command.Inspection
import DeviceTwin.Suggestion.Score

/-!
# The programs

Both programs are one, told apart by the name they are started under. What they do is a
plan; here it is carried out on the disk of the machine.

Hash tables give their entries in the order in which they were filled here, numerals are read as
the nearest double, and settings are read from TOML and JSON only.
-/

namespace DeviceTwin.Main

open DeviceTwin.Files

/-- What stands at a path of the machine; nothing, if it cannot be read. -/
partial def entryAt (path : String) : IO (Option Entry) := do
  try
    let place ← IO.FS.realPath path
    if ← place.isDir then
      let mut entries := []
      for e in ← place.readDir do
        if let some entry ← entryAt e.path.toString then
          entries := (e.fileName, entry) :: entries
      return some (.directory entries)
    else
      return some (.file (← IO.FS.readBinFile path))
  catch _ => return none

def obstacleOf : IO.Error → Obstacle
  | .noFileOrDirectory .. => .missing
  | .inappropriateType _ 20 _ => .notDirectory
  | .inappropriateType _ 21 _ => .isDirectory
  | .permissionDenied .. => .refused "Permission denied (os error 13)"
  | e => .refused e.toString

/-- Carries a plan out. -/
def perform {α : Type} : Plan α → IO α
  | .done a => return a
  | .look path next => do perform (next (← entryAt path))
  | .write path text next => do
    let result ←
      try
        IO.FS.writeFile path text
        pure (Except.ok ())
      catch e => pure (Except.error (obstacleOf e))
    perform (next result)

/-- The variables that the program was started with. -/
def environmentValues : IO (List (String × String)) := do
  try
    let content ← IO.FS.readBinFile "/proc/self/environ"
    return (content.toList.splitBy fun a b => a != 0 && b != 0).filterMap fun v => do
      let (name, value) ← Text.cut '=' (← strict ⟨v.toArray⟩).toList
      return (String.ofList name, String.ofList value)
  catch _ => return []

def usage (name : String) : String :=
  if name = "twin-config" then
    "Usage: twin-config show|init|validate"
  else
    "Usage: twin-validator [-c FILE] validate|stats|unused|dtmi|graph"

end DeviceTwin.Main

open DeviceTwin in
open scoped DeviceTwin.Concrete in
def main (args : List String) : IO UInt32 := do
  let environment : Environment :=
    ⟨← DeviceTwin.Main.environmentValues, (← IO.currentDir).toString⟩
  let name := (← IO.appPath).fileName.getD ""
  let run := if name = "twin-config" then Configuration.run else Inspection.run
  let outcome ← DeviceTwin.Main.perform (run environment args)
  (← IO.getStdout).putStr outcome.output
  (← IO.getStderr).putStr outcome.errors
  if outcome = .help then
    (← IO.getStdout).putStrLn (DeviceTwin.Main.usage name)
  if outcome = .usage then
    (← IO.getStderr).putStrLn (DeviceTwin.Main.usage name)
  return outcome.code.toUInt32
