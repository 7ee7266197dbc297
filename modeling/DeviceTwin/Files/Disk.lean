import DeviceTwin.Files.Entry
import DeviceTwin.Files.Path

/-!
# File systems

A disk is a tree of entries and the address that relative paths start from. A path
is followed piece by piece: every piece but the last one has to lead to a directory,
also a piece that leads nowhere, so a path that ends in a slash is one of a directory.

`Disk.look` finds what stands at a path, and `Disk.write` puts a file there or says
what is in the way.
-/

namespace DeviceTwin.Files

/-- What is in the way of reading or writing a file. A machine may refuse it for reasons
of its own. -/
inductive Obstacle where
  | missing
  | notDirectory
  | isDirectory
  | notText
  | refused (reason : String)
  deriving DecidableEq, Repr

def Obstacle.message : Obstacle → String
  | missing => "No such file or directory (os error 2)"
  | notDirectory => "Not a directory (os error 20)"
  | isDirectory => "Is a directory (os error 21)"
  | notText => "stream did not contain valid UTF-8"
  | refused reason => reason

structure Disk where
  root : Entry
  here : Address

namespace Disk

/-- The address of a directory that one is to be in. -/
def enter (d : Disk) (place : Address) : Except Obstacle Address :=
  match d.root.find? place with
  | none => .error .missing
  | some e => if e.isDirectory then .ok place else .error .notDirectory

/-- Follows the pieces of a path. -/
def follow (d : Disk) : Address → List String → Except Obstacle Address
  | place, [] => .ok place
  | place, p :: ps =>
    match d.enter place with
    | .error o => .error o
    | .ok place =>
      if p = "" ∨ p = "." then d.follow place ps
      else if p = ".." then d.follow place.dropLast ps
      else d.follow (place ++ [p]) ps

/-- Where a path starts. -/
def start (d : Disk) (path : String) : Address :=
  if Path.isAbsolute path then [] else d.here

def address (d : Disk) (path : String) : Except Obstacle Address :=
  if path.isEmpty then .error .missing else d.follow (d.start path) (Path.pieces path)

/-- What stands at a path. -/
def look (d : Disk) (path : String) : Option Entry :=
  match d.address path with
  | .ok place => d.root.find? place
  | .error _ => none

/-- The last piece of a path that is not empty, the pieces before it, and whether a
slash follows. -/
def lastPiece? (path : String) : Option (List String × String × Bool) :=
  let ps := Path.pieces path
  let kept := (ps.reverse.dropWhile (· = "")).reverse
  kept.getLast?.map fun p => (kept.dropLast, p, kept.length < ps.length)

/-- The address of the file that a path to write to means. -/
def target (d : Disk) (path : String) : Except Obstacle Address :=
  if path.isEmpty then .error .missing else
  match lastPiece? path with
  | none => .error .isDirectory
  | some (above, name, slash) => do
    let place ← d.follow (d.start path) above
    let place ← d.enter place
    if name = "." ∨ name = ".." ∨ slash then
      .error .isDirectory
    else
      match d.root.find? (place ++ [name]) with
      | some (.directory _) => .error .isDirectory
      | _ => return place ++ [name]

/-- Puts a text into a file. If something is in the way, nothing changes. -/
def write (d : Disk) (path text : String) : Except Obstacle Disk :=
  (d.target path).map fun place => { d with root := d.root.put text.toUTF8 place }

end Disk

end DeviceTwin.Files
