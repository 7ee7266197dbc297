import DeviceTwin.Model.Loading
import DeviceTwin.Validation.Check

/-!
# Verdicts on files

Every file that is to be validated gets a verdict, whatever became of the others: it
holds a valid description, or one with defects, or none that could be read.
-/

namespace DeviceTwin

open DeviceTwin.Files

variable [Json.RealReader] [Text.HashOrder] [Suggestion.Matcher]

inductive Verdict where
  | valid (id : String)
  | defective (defects : Defects)
  | unread (fault : LoadFault)
  deriving DecidableEq

namespace Verdict

def of (s : ValidationSettings) : Except LoadFault Model → Verdict
  | .error f => unread f
  | .ok m =>
    match Validation.validate s m with
    | .ok m => valid m.id
    | .error defects => defective defects

def isValid : Verdict → Bool
  | valid _ => true
  | _ => false

/-- The lines of a report about the file at a path. Suggestions may be left out. -/
def lines (suggestions : Bool) (path : String) : Verdict → List String
  | valid id => ["✅ " ++ path ++ " (" ++ id ++ ")"]
  | unread f => ["❌ " ++ path ++ " - " ++ f.message]
  | defective defects =>
    ("❌ " ++ path ++ " - " ++ toString defects.length ++ " defect(s)") ::
      defects.map fun d =>
        "   └─ " ++ (if suggestions then d else d.withoutSuggestion).line

/-- The verdicts on what stands at a path: on every description below a directory, and
on anything else alone. -/
def onEntry (s : Settings) (path : String) : Option Entry → List (String × Verdict)
  | some (.directory entries) =>
    (Model.allIn s.loader (.directory entries)).map fun l =>
      (Path.joined path l.path, of s.validation l.outcome)
  | e => [(path, of s.validation (Model.ofEntry path e))]

/-- The verdicts on what stands at several paths, in their order. -/
def onPaths (s : Settings) : List String → Plan (List (String × Verdict))
  | [] => return []
  | path :: paths => do
    let e ← Plan.entry path
    let more ← onPaths s paths
    return onEntry s path e ++ more

end Verdict

end DeviceTwin
