import DeviceTwin.Defect.Basic
import DeviceTwin.Dtmi.Check
import DeviceTwin.Model.Basic

/-!
# Checks of the root

The context, the identifier, the texts that may not be empty, and the kind of a
description are checked one by one; each check stands for itself.
-/

namespace DeviceTwin.Validation

def contextDefects (expected : String) (m : Model) : Defects :=
  if m.context = expected then [] else [.invalidContext expected m.context]

def idDefects (m : Model) : Defects :=
  match Dtmi.problem? m.id.toList with
  | none => []
  | some p => [.invalidDtmi m.id p.message]

def emptyDefects (field text : String) : Defects :=
  if text = "" then [.missingRequiredField field] else []

def kindDefects (m : Model) : Defects :=
  if m.kind = Model.interfaceKind then []
  else [.invalidFieldValue "@type" ("'" ++ Model.interfaceKind ++ "'") m.kind]

def structureDefects (expectedContext : String) (m : Model) : Defects :=
  contextDefects expectedContext m ++ idDefects m ++
    emptyDefects "displayName" m.displayName ++ emptyDefects "description" m.description ++
    kindDefects m

end DeviceTwin.Validation
