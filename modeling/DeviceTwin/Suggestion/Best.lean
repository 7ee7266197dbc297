/-!
# The name that was perhaps meant

An undeclared name may be short for a declared one or too long for it, so a matcher is
asked for the score of each in the other and the better score counts. Of the declared
names with the highest score the smallest is suggested.

A matcher may keep something in mind of what it was asked before, so it answers out of a
memory (`Asking`). What a matcher answers is not taken for granted; that it has a score
exactly for a pattern that fits is the law `Matcher.ScoresFits`, and that it answers the
same whatever it was asked before is the law `Validation.Steady`.
-/

namespace DeviceTwin.Suggestion

/-- A matcher, as far as it is known: what it keeps in mind, with a blank memory at first,
and what it answers out of it, the score of a pattern in a name if it fits. -/
class Matcher where
  Memory : Type
  blank : Memory
  ask (name pattern : String) : StateM Memory (Option Int)

/-- What is found by asking a matcher. -/
abbrev Asking [Matcher] (α : Type) := StateM Matcher.Memory α

/-- What a matcher said of a declared name: its score for the undeclared name in it, and
for it in the undeclared name. -/
structure Comparison where
  candidate : String
  inCandidate : Option Int
  inWanted : Option Int
  deriving DecidableEq, Repr

/-- The better one of the two scores. -/
def Comparison.score? (c : Comparison) : Option Int :=
  match c.inCandidate, c.inWanted with
  | some a, some b => some (max a b)
  | some a, none => some a
  | none, b => b

/-- Is a scored name to be preferred to another one? -/
def isBetter (a b : Int × String) : Bool :=
  b.1 < a.1 || (a.1 == b.1 && decide (a.2 < b.2))

def bestOf : List (Int × String) → Option (Int × String)
  | [] => none
  | a :: as =>
    match bestOf as with
    | none => some a
    | some b => if isBetter b a then some b else some a

/-- The best of the names that have a score. -/
def bestCompared? (cs : List Comparison) : Option String :=
  (bestOf (cs.filterMap fun c => c.score?.map fun score => (score, c.candidate))).map (·.2)

section Ask

variable [Matcher]

def compare (wanted candidate : String) : Asking Comparison := do
  let inCandidate ← Matcher.ask candidate wanted
  let inWanted ← Matcher.ask wanted candidate
  return ⟨candidate, inCandidate, inWanted⟩

/-- The declared names are compared one after the other, as they are listed. -/
def compareAll (wanted : String) (declared : List String) : Asking (List Comparison) :=
  declared.mapM (compare wanted)

def best? (wanted : String) (declared : List String) : Asking (Option String) :=
  bestCompared? <$> compareAll wanted declared

end Ask

end DeviceTwin.Suggestion
