import MethodSig.Catalog.Declaration
import MethodSig.Method.Basic
import MethodSig.Validation.Scalar

/-!
# Checking records

A record is checked field by field in the order of declaration, and all its faults are reported.
Fields that a record does not know are passed over. Descriptors may lie within one another up to a
fixed number of levels.
-/

namespace MethodSig.Validation

variable {α : Type}

def record (type : String) (check : List (String × Json) → Checked α) : Json → Checked α
  | .object fields => check fields
  | _ => .fault (.notRecord type)

def required (fields : List (String × Json)) (name : String) (check : Json → Checked α) :
    Checked α :=
  match fields.lookup name with
  | some value => (check value).under (.field name)
  | none => .invalid [⟨[.field name], .missing⟩]

def optional (fields : List (String × Json)) (name : String) (default : α)
    (check : Json → Checked α) : Checked α :=
  match fields.lookup name with
  | some value => (check value).under (.field name)
  | none => .valid default

def nullable (check : Json → Checked α) : Json → Checked (Option α)
  | .null => .valid none
  | value => some <$> check value

/-- The items of a sequence, from the given position on. -/
def itemsFrom (check : Json → Checked α) (n : Nat) : List Json → Checked (List α)
  | [] => .valid []
  | item :: rest => List.cons <$> (check item).under (.index n) <*> itemsFrom check (n + 1) rest

def list (check : Json → Checked α) : Json → Checked (List α)
  | .array items => itemsFrom check 0 items
  | _ => .fault .notList

def tuple (check : Json → Checked α) : Json → Checked (List α)
  | .array items => itemsFrom check 0 items
  | _ => .fault .notTuple

/-- The greatest number of descriptors within one another. -/
def maxLevels : Nat := 254

/-- Checks a descriptor of at most the given number of levels. -/
def descriptorWithin : Nat → Json → Checked Descriptor
  | 0, _ => .fault .nestedTooDeep
  | levels + 1, value =>
    record "TypeDescriptor" (fun fields =>
      Descriptor.mk <$> required fields "kind" kind <*> required fields "name" text <*>
        optional fields "component" none (nullable (descriptorWithin levels)) <*>
        optional fields "dimensions" 0 natural) value

def descriptor : Json → Checked Descriptor :=
  descriptorWithin maxLevels

def argumentName (value : Json) : Checked { s : String // Signature.isIdentifier s.toList } :=
  (text value).andThen fun s =>
    if h : Signature.isIdentifier s.toList then .valid ⟨s, h⟩ else .fault (.argumentName s)

def argument : Json → Checked Argument :=
  record "Argument" fun fields =>
    (fun name type => ⟨name.1, type, name.2⟩) <$> required fields "name" argumentName <*>
      required fields "type" descriptor

def member : Json → Checked Member :=
  record "MemberHandle" fun fields =>
    Member.mk <$> required fields "owner" text <*> required fields "name" text <*>
      optional fields "parameter_types" [] (tuple descriptor) <*>
      optional fields "return_type" none (nullable text) <*>
      optional fields "is_static" false boolean

def method : Json → Checked Method :=
  record "MethodModel" fun fields =>
    Method.mk <$> required fields "name" text <*> required fields "result_type" descriptor <*>
      optional fields "arguments" [] (tuple argument) <*> required fields "member" member <*>
      optional fields "unique_name" none (nullable text)

def methodDecl : Json → Checked MethodDecl :=
  record "MethodDecl" fun fields =>
    MethodDecl.mk <$> required fields "name" text <*>
      optional fields "parameter_types" [] (list text) <*>
      optional fields "return_type" "void" text <*>
      optional fields "modifiers" [] (list text)

def typeDecl : Json → Checked TypeDecl :=
  record "TypeDecl" fun fields =>
    TypeDecl.mk <$> required fields "qualified_name" text <*>
      optional fields "package" "" text <*> optional fields "imports" [] (list text) <*>
      optional fields "supertypes" [] (list text) <*>
      optional fields "is_interface" false boolean <*>
      optional fields "methods" [] (list methodDecl)

/-- The values of a mapping, each under its key. -/
def entries (check : Json → Checked α) : List (String × Json) → Checked (List (String × α))
  | [] => .valid []
  | (key, value) :: rest =>
    (fun a others => (key, a) :: others) <$> (check value).under (.field key) <*>
      entries check rest

def mapping (check : Json → Checked α) : Json → Checked (List (String × α))
  | .object fields => entries check fields
  | _ => .fault .notMapping

/-- The declarations of a catalog, each under its key. -/
def catalog : Json → Checked (List (String × TypeDecl)) :=
  record "TypeCatalog" fun fields => optional fields "types" [] (mapping typeDecl)

end MethodSig.Validation
