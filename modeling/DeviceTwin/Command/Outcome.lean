import DeviceTwin.Text.Split

/-!
# Outcomes of a command

A command ends with an exit code and has written lines for its user, those about faults
apart from the others.
-/

namespace DeviceTwin

structure Outcome where
  code : Nat
  output : String
  errors : String
  deriving DecidableEq, Repr

namespace Outcome

/-- Texts on lines of their own. -/
def text (lines : List String) : String :=
  String.join (lines.map (· ++ "\n"))

def success (lines : List String) : Outcome :=
  ⟨0, text lines, ""⟩

/-- Lines that tell of a result that is not as it should be. -/
def failure (lines : List String) : Outcome :=
  ⟨1, text lines, ""⟩

/-- A fault that kept the command from its work, given by its message. -/
def fault (message : String) : Outcome :=
  ⟨1, "", text [message]⟩

/-- A fault given by its message and the causes of it. -/
def error (trail : List String) : Outcome :=
  fault ("Error: " ++ Text.interpose ": " trail)

/-- Arguments that ask for help. The help itself is left out. -/
def help : Outcome :=
  ⟨0, "", ""⟩

/-- Arguments that make no command. -/
def usage : Outcome :=
  ⟨2, "", ""⟩

end Outcome

end DeviceTwin
