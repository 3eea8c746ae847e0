import MethodSig.Validation.Record

/-!
# Assigning to the fields of a record

Descriptors, arguments and members never change. Of a method only the unique name may be assigned,
and the new value is checked. The fields of declarations take any value. A name that begins with
an underscore is no field, and assigning to it changes nothing.
-/

namespace MethodSig.Validation

/-- The types of record. -/
inductive RecordType where
  | descriptor
  | argument
  | member
  | method
  | methodDecl
  | typeDecl
  | catalog
deriving DecidableEq, Repr

def RecordType.name : RecordType → String
  | .descriptor => "TypeDescriptor"
  | .argument => "Argument"
  | .member => "MemberHandle"
  | .method => "MethodModel"
  | .methodDecl => "MethodDecl"
  | .typeDecl => "TypeDecl"
  | .catalog => "TypeCatalog"

/-- Why a field was not assigned. -/
inductive AssignmentFault where
  /-- The record or the value is against it. -/
  | refused (fault : Fault)
  | noField (type : RecordType) (name : String)

/-- What is reported for a field that a record does not have. -/
def noFieldMessage (type : RecordType) (name : String) : String :=
  s!"\"{type.name}\" object has no field \"{name}\""

/-- Assigns to a field of a record, given by its fields. -/
def assign (type : RecordType) (fields : List (String × Json)) (name : String) (value : Json) :
    Except AssignmentFault (List (String × Json)) :=
  let refuse (cause : Cause) := .error (.refused ⟨[.field name], cause⟩)
  if name.startsWith "_" then .ok fields
  else match type with
    | .descriptor | .argument | .member => refuse .frozenInstance
    | .method =>
      if name = "unique_name" then
        match value with
        | .null | .string _ => .ok (Json.setField name value fields)
        | .brokenString => refuse .brokenText
        | _ => refuse .notText
      else if (fields.lookup name).isSome then refuse .frozenField
      else refuse (.unknownAttribute name)
    | .methodDecl | .typeDecl | .catalog =>
      if (fields.lookup name).isSome then .ok (Json.setField name value fields)
      else .error (.noField type name)

end MethodSig.Validation
