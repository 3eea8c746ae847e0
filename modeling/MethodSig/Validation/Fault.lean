import MethodSig.Text.Quoted

/-!
# Validation faults

A fault tells where in a value something is wrong, and what.
-/

namespace MethodSig.Validation

/-- A step from a value to one of its parts. -/
inductive Step where
  | field (name : String)
  | index (n : Nat)
deriving DecidableEq, Repr

/-- What is wrong with a value. -/
inductive Cause where
  | missing
  | notText
  | brokenText
  | notRecord (type : String)
  | notMapping
  | notTuple
  | notList
  | notAmong (code : String) (options : List String)
  | notInteger
  | notIntegerText
  | integerTooLarge
  | fractional
  | notFinite
  | negative
  | notBoolean
  | notBooleanText
  | emptyText
  | argumentName (name : String)
  /-- There are too many values within one another. -/
  | nestedTooDeep
  | frozenInstance
  | frozenField
  | unknownAttribute (name : String)
deriving DecidableEq, Repr

/-- Options between single quotes, the last two joined by a word. -/
def listOptions : List String → String
  | [] => ""
  | [a] => s!"'{a}'"
  | [a, b] => s!"'{a}' or '{b}'"
  | a :: rest => s!"'{a}', {listOptions rest}"

namespace Cause

def code : Cause → String
  | .missing => "missing"
  | .notText => "string_type"
  | .brokenText => "string_unicode"
  | .notRecord _ => "model_type"
  | .notMapping => "dict_type"
  | .notTuple => "tuple_type"
  | .notList => "list_type"
  | .notAmong code _ => code
  | .notInteger => "int_type"
  | .notIntegerText => "int_parsing"
  | .integerTooLarge => "int_parsing_size"
  | .fractional => "int_from_float"
  | .notFinite => "finite_number"
  | .negative => "greater_than_equal"
  | .notBoolean => "bool_type"
  | .notBooleanText => "bool_parsing"
  | .emptyText => "string_too_short"
  | .argumentName _ => "value_error"
  | .nestedTooDeep => "recursion_loop"
  | .frozenInstance => "frozen_instance"
  | .frozenField => "frozen_field"
  | .unknownAttribute _ => "no_such_attribute"

def message : Cause → String
  | .missing => "Field required"
  | .notText => "Input should be a valid string"
  | .brokenText => "Input should be a valid string, unable to parse raw data as a unicode string"
  | .notRecord type => s!"Input should be a valid dictionary or instance of {type}"
  | .notMapping => "Input should be a valid dictionary"
  | .notTuple => "Input should be a valid tuple"
  | .notList => "Input should be a valid list"
  | .notAmong _ options => s!"Input should be {listOptions options}"
  | .notInteger => "Input should be a valid integer"
  | .notIntegerText =>
    "Input should be a valid integer, unable to parse string as an integer"
  | .integerTooLarge => "Unable to parse input string as an integer, exceeded maximum size"
  | .fractional => "Input should be a valid integer, got a number with a fractional part"
  | .notFinite => "Input should be a finite number"
  | .negative => "Input should be greater than or equal to 0"
  | .notBoolean => "Input should be a valid boolean"
  | .notBooleanText => "Input should be a valid boolean, unable to interpret input"
  | .emptyText => "String should have at least 1 character"
  | .argumentName name => s!"Value error, Invalid argument name: {Text.quoted name}"
  | .nestedTooDeep => "Recursion error - cyclic reference detected"
  | .frozenInstance => "Instance is frozen"
  | .frozenField => "Field is frozen"
  | .unknownAttribute name => s!"Object has no attribute '{name}'"

end Cause

/-- Something that is wrong with a part of a value. -/
structure Fault where
  path : List Step
  cause : Cause
deriving DecidableEq, Repr

/-- What is said of a part of a value that is wrong. -/
structure Complaint where
  path : List Step
  text : String
deriving DecidableEq, Repr

def Step.text : Step → String
  | .field name => name
  | .index n => toString n

def Complaint.render (c : Complaint) : String :=
  ".".intercalate (c.path.map Step.text) ++ ": " ++ c.text

def Fault.complaint (f : Fault) : Complaint :=
  ⟨f.path, f.cause.message⟩

def Fault.render (f : Fault) : String :=
  f.complaint.render

/-- A checked value, or all that is wrong with it, in order. -/
inductive Checked (α : Type) where
  | valid (a : α)
  | invalid (faults : List Fault)

namespace Checked

variable {α β : Type}

def faults : Checked α → List Fault
  | .valid _ => []
  | .invalid faults => faults

def both (f : Checked (α → β)) (x : Checked α) : Checked β :=
  match f, x with
  | .valid f, .valid a => .valid (f a)
  | f, x => .invalid (f.faults ++ x.faults)

instance : Applicative Checked where
  pure := .valid
  seq f x := f.both (x ())

def fault (cause : Cause) : Checked α :=
  .invalid [⟨[], cause⟩]

def under (step : Step) : Checked α → Checked α
  | .valid a => .valid a
  | .invalid faults => .invalid (faults.map fun f => { f with path := step :: f.path })

/-- Checks the value further, once it is valid. -/
def andThen (x : Checked α) (f : α → Checked β) : Checked β :=
  match x with
  | .valid a => f a
  | .invalid faults => .invalid faults

/-- The value, or its faults. -/
def toExcept : Checked α → Except (List Fault) α
  | .valid a => .ok a
  | .invalid faults => .error faults

end Checked

end MethodSig.Validation
