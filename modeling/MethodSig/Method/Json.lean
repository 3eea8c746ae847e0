import MethodSig.Json.Reader
import MethodSig.Json.Writer
import MethodSig.Method.Basic
import MethodSig.Validation.Fault

/-!
# Finished batches as JSON

A batch is written as an array of objects with all fields present, and read back from any JSON
text that describes methods. What turns batches into values and values into batches is left open:
an adapter may refuse either, and may take values that are not written this way.
-/

namespace MethodSig

def Kind.name : Kind → String
  | .primitive => "PRIMITIVE"
  | .declared => "CLASS"
  | .array => "ARRAY"

/-- A text, or null in its absence. -/
def Json.ofText? : Option String → Json
  | some s => .string s
  | none => .null

def Descriptor.toJson : Descriptor → Json
  | ⟨kind, name, none, dimensions⟩ =>
    .object [("kind", .string kind.name), ("name", .string name), ("component", .null),
      ("dimensions", .int dimensions)]
  | ⟨kind, name, some component, dimensions⟩ =>
    .object [("kind", .string kind.name), ("name", .string name),
      ("component", component.toJson), ("dimensions", .int dimensions)]

def Argument.toJson (a : Argument) : Json :=
  .object [("name", .string a.name), ("type", a.type.toJson)]

def Member.toJson (m : Member) : Json :=
  .object [("owner", .string m.owner), ("name", .string m.name),
    ("parameter_types", .array (m.parameterTypes.map Descriptor.toJson)),
    ("return_type", .ofText? m.returnType), ("is_static", .bool m.isStatic)]

def Method.toJson (m : Method) : Json :=
  .object [("name", .string m.name), ("result_type", m.resultType.toJson),
    ("arguments", .array (m.arguments.map Argument.toJson)), ("member", m.member.toJson),
    ("unique_name", .ofText? m.uniqueName)]

/-- What turns batches into values and values into batches. -/
structure BatchAdapter where
  /-- The value of a batch, or why it has none. -/
  dump : List Method → Except String Json
  /-- The batch that a value describes, or all that is wrong with the value. -/
  validate : Json → Except (List Validation.Complaint) (List Method)

/-- Why a batch has no text, or a text or value is no batch. -/
inductive BatchFault where
  | notWritten (reason : String)
  | notJson (fault : Json.SyntaxFault)
  | numberTooLong (digits : Nat)
  | notMethods (complaints : List Validation.Complaint)
deriving DecidableEq

namespace BatchFault

def message : BatchFault → String
  | .notWritten _ => "Failed to serialize method models"
  | .notJson _ => "Invalid JSON format"
  | .numberTooLong digits => (Json.Problem.tooManyDigits digits).message
  | .notMethods _ => "Method model validation failed"

/-- What is reported below the message, if there is more to say. -/
def details : BatchFault → Option String
  | .notWritten reason => some reason
  | .notJson fault => some s!"Line {fault.line}, column {fault.column}: {fault.problem.message}"
  | .numberTooLong _ => none
  | .notMethods complaints => some ("; ".intercalate (complaints.map Validation.Complaint.render))

end BatchFault

variable (adapter : BatchAdapter)

def serialize (methods : List Method) : Except BatchFault String :=
  (adapter.dump methods >>= Json.print).mapError .notWritten

def batchOfJson (value : Json) : Except BatchFault (List Method) :=
  (adapter.validate value).mapError .notMethods

def deserialize (text : String) : Except BatchFault (List Method) :=
  match Json.parse text with
  | .ok value => batchOfJson adapter value
  | .error ⟨.tooManyDigits digits, _, _⟩ => .error (.numberTooLong digits)
  | .error fault => .error (.notJson fault)

end MethodSig
