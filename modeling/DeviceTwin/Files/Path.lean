import DeviceTwin.Text.Split

/-!
# Texts of paths

A path is a text whose pieces stand between slashes. Empty pieces and single dots
stay where they are, and two dots go up. What is done here needs no file system:
joining, the names and extensions of files, and the way from one place to another.
-/

namespace DeviceTwin.Files.Path

open DeviceTwin.Text

def pieces (path : String) : List String :=
  (Text.pieces '/' path.toList).map String.ofList

def isAbsolute (path : String) : Bool :=
  path.toList.head? == some '/'

/-- The pieces that lead somewhere else. -/
def steps (path : String) : List String :=
  (pieces path).filter fun p => p ≠ "" ∧ p ≠ "."

/-- A path taken from another one. -/
def joined (base path : String) : String :=
  if isAbsolute path || base.isEmpty then path
  else if base.toList.getLast? == some '/' then base ++ path
  else base ++ "/" ++ path

def ofSteps (steps : List String) : String :=
  interpose "/" steps

/-- What stands behind the last dot of a name. A dot that begins the name is part of
it. -/
def extension? (name : String) : Option String :=
  match cutLast '.' name.toList with
  | none => none
  | some ([], _) => none
  | some (_ :: _, ext) => if name = ".." then none else some (String.ofList ext)

/-- The name that a path ends in, unless it ends by going up. -/
def name? (path : String) : Option String :=
  (steps path).getLast?.filter (· ≠ "..")

/-- A path with something put behind the name it ends in. -/
def withSuffix? (path suffix : String) : Option String :=
  (name? path).map fun name =>
    let above := ofSteps ((steps path).dropLast ++ [name ++ suffix])
    if isAbsolute path then "/" ++ above else above

/-- The steps from one place to another, both given by their steps from the top. -/
def between : List String → List String → List String
  | [], target => target
  | base, [] => base.map fun _ => ".."
  | b :: base, t :: target =>
    if b = t then between base target
    else (b :: base).map (fun _ => "..") ++ t :: target

@[simp] theorem between_nil (target : List String) : between [] target = target := by
  rw [between]

end DeviceTwin.Files.Path
