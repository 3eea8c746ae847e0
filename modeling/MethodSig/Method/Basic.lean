import MethodSig.Signature.Identifier
import MethodSig.Type.Descriptor

/-!
# Methods bound to members

A compiled method has a result type, named and typed arguments and the member of the target type
that it is bound to. Its unique name is absent until the batch it belongs to is finished.
-/

namespace MethodSig

/-- A named and typed argument. Its name is an identifier. -/
structure Argument where
  name : String
  type : Descriptor
  name_isIdentifier : Signature.isIdentifier name.toList = true
deriving DecidableEq

/-- A member declared on a catalogued type. -/
structure Member where
  owner : String
  name : String
  parameterTypes : List Descriptor
  returnType : Option String
  isStatic : Bool
deriving DecidableEq

/-- A method of a batch, bound to a member of the target type. -/
structure Method where
  name : String
  resultType : Descriptor
  arguments : List Argument
  member : Member
  /-- The generated name, which no other method of the batch shares. -/
  uniqueName : Option String
deriving DecidableEq

namespace Argument

/-- An argument of the given name and type, if the name is an identifier. -/
def ofName? (name : String) (type : Descriptor) : Option Argument :=
  if h : Signature.isIdentifier name.toList = true then some ⟨name, type, h⟩ else none

def render (a : Argument) : String :=
  a.type.name ++ " " ++ a.name

end Argument

/-- The owner, the name and the parameter types of the member. -/
def Member.render (m : Member) : String :=
  let parameters := ", ".intercalate (m.parameterTypes.map Descriptor.name)
  s!"{m.owner}.{m.name}({parameters})"

namespace Method

/-- The names of the arguments, in order. -/
def argumentNames (m : Method) : List String :=
  m.arguments.map Argument.name

/-- The types of the arguments, in order. -/
def argumentTypes (m : Method) : List Descriptor :=
  m.arguments.map Argument.type

/-- The descriptors that a method holds, without their components. -/
def descriptors (m : Method) : List Descriptor :=
  m.resultType :: (m.argumentTypes ++ m.member.parameterTypes)

/-- No descriptor of the method has more than the given number of levels. -/
def IsWithin (limit : Nat) (m : Method) : Prop :=
  ∀ d ∈ m.descriptors, d.levels ≤ limit

instance (limit : Nat) (m : Method) : Decidable (m.IsWithin limit) :=
  inferInstanceAs (Decidable (∀ d ∈ m.descriptors, d.levels ≤ limit))

def renderArguments (m : Method) : String :=
  ", ".intercalate (m.arguments.map Argument.render)

def render (m : Method) : String :=
  s!"{m.resultType.name} {m.name}({m.renderArguments});"

end Method

end MethodSig
