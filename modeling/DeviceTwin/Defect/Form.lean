import DeviceTwin.Defect.Basic
import DeviceTwin.Json.Tagged

/-!
# The written form of defects
-/

namespace DeviceTwin

open DeviceTwin.Json

def ElementKind.choice : Choice ElementKind :=
  ⟨ElementKind.all.map fun k => (k.name, .nothing k)⟩

def ElementKind.codec : Codec ElementKind :=
  ⟨ElementKind.choice.read, fun k => .text k.name⟩

def DefectKind.choice : Choice DefectKind :=
  ⟨DefectKind.all.map fun k => (k.name, .nothing k)⟩

def DefectKind.codec : Codec DefectKind :=
  ⟨DefectKind.choice.read, fun k => .text k.name⟩

namespace Defect

def invalidReferenceVariant : Variant Defect where
  tag := "invalidReference"
  title := "struct variant Defect::InvalidReference"
  fields :=
    [.required "sourceKind" ElementKind.codec, .required "sourceName" .string,
      .required "targetKind" ElementKind.codec, .required "targetName" .string,
      .optional "suggestion" .string]
  build := fun (sourceKind, sourceName, targetKind, targetName, suggestion, ()) =>
    invalidReference sourceKind sourceName targetKind targetName suggestion

def duplicateNameVariant : Variant Defect where
  tag := "duplicateName"
  title := "struct variant Defect::DuplicateName"
  fields := [.required "elementKind" ElementKind.codec, .required "name" .string]
  build := fun (elementKind, name, ()) => duplicateName elementKind name

def invalidStateTransitionVariant : Variant Defect where
  tag := "invalidStateTransition"
  title := "struct variant Defect::InvalidStateTransition"
  fields := [.required "from" .string, .required "to" .string, .required "reason" .string]
  build := fun (source, target, reason, ()) => invalidStateTransition source target reason

def unreachableStatesVariant : Variant Defect where
  tag := "unreachableStates"
  title := "struct variant Defect::UnreachableStates"
  fields := [.required "initial" .string, .required "states" Codec.string.list]
  build := fun (initial, states, ()) => unreachableStates initial states

def missingRequiredFieldVariant : Variant Defect where
  tag := "missingRequiredField"
  title := "struct variant Defect::MissingRequiredField"
  fields := [.required "field" .string]
  build := fun (field, ()) => missingRequiredField field

def invalidFieldValueVariant : Variant Defect where
  tag := "invalidFieldValue"
  title := "struct variant Defect::InvalidFieldValue"
  fields := [.required "field" .string, .required "expected" .string, .required "actual" .string]
  build := fun (field, expected, actual, ()) => invalidFieldValue field expected actual

def invalidContextVariant : Variant Defect where
  tag := "invalidContext"
  title := "struct variant Defect::InvalidContext"
  fields := [.required "expected" .string, .required "actual" .string]
  build := fun (expected, actual, ()) => invalidContext expected actual

def invalidDtmiVariant : Variant Defect where
  tag := "invalidDtmi"
  title := "struct variant Defect::InvalidDtmi"
  fields := [.required "id" .string, .required "reason" .string]
  build := fun (id, reason, ()) => invalidDtmi id reason

def circularReferenceVariant : Variant Defect where
  tag := "circularReference"
  title := "struct variant Defect::CircularReference"
  fields := [.required "path" Codec.string.list]
  build := fun (path, ()) => circularReference path

def tagged : Tagged Defect where
  key := "kind"
  title := "internally tagged enum Defect"
  variants :=
    [invalidReferenceVariant, duplicateNameVariant, invalidStateTransitionVariant,
      unreachableStatesVariant, missingRequiredFieldVariant, invalidFieldValueVariant,
      invalidContextVariant, invalidDtmiVariant, circularReferenceVariant]
  parts
    | invalidReference sourceKind sourceName targetKind targetName suggestion =>
      ⟨invalidReferenceVariant, (sourceKind, sourceName, targetKind, targetName, suggestion, ())⟩
    | duplicateName elementKind name => ⟨duplicateNameVariant, (elementKind, name, ())⟩
    | invalidStateTransition source target reason =>
      ⟨invalidStateTransitionVariant, (source, target, reason, ())⟩
    | unreachableStates initial states => ⟨unreachableStatesVariant, (initial, states, ())⟩
    | missingRequiredField field => ⟨missingRequiredFieldVariant, (field, ())⟩
    | invalidFieldValue field expected actual =>
      ⟨invalidFieldValueVariant, (field, expected, actual, ())⟩
    | invalidContext expected actual => ⟨invalidContextVariant, (expected, actual, ())⟩
    | invalidDtmi id reason => ⟨invalidDtmiVariant, (id, reason, ())⟩
    | circularReference path => ⟨circularReferenceVariant, (path, ())⟩

def codec : Codec Defect := tagged.codec

end Defect

def Defects.codec : Codec Defects := Defect.codec.list

end DeviceTwin
