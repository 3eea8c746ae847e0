import MethodSig.Batch.Context
import MethodSig.Batch.Diagnostic
import MethodSig.Batch.Hook
import MethodSig.Method.UniqueName
import MethodSig.Signature.Tokens

/-!
# Compiling a batch of signatures

Each signature is taken apart, its types are resolved and it is bound to a member of the target
type. The hook then sees the whole batch. What it returns must give every argument name one
type, and is put into canonical order with unique names.
-/

namespace MethodSig

namespace Context

def resolve (context : Context) (text : String) : Attempt Descriptor := do
  match ← context.resolver.resolve text with
  | .ok type => return type
  | .error text => throw (.unresolvedType text)

/-- Resolves the type of an argument and joins it to its name. -/
def buildArgument (context : Context) (token : String × String) : Attempt Argument := do
  let type ← context.resolve token.1
  match Argument.ofName? token.2 type with
  | some argument => return argument
  | none => throw (.invalidArgumentName token.2)

/-- Resolves the types of a signature and binds it to a member of the target type. -/
def build (context : Context) (target : Descriptor) (tokens : Signature.Tokens) :
    Attempt Method := do
  let resultType ← context.resolve tokens.resultType
  let arguments ← tokens.arguments.mapM context.buildArgument
  match ← context.bind target tokens.name (arguments.map Argument.type) with
  | none => throw (.unboundMember tokens.signature target.name)
  | some member =>
    Logged.tell (.bound tokens.signature member.render)
    return ⟨tokens.name, resultType, arguments, member, none⟩

end Context

/-- All that decides what becomes of a list of signatures. -/
structure Compiler where
  target : Descriptor
  context : Context
  hook : Hook
  policy : DuplicatePolicy

namespace Compiler

def bindSignature (c : Compiler) (signature : String) : Attempt Method := do
  Logged.tell (.processing signature)
  match Signature.tokenize signature with
  | .ok tokens => c.context.build c.target tokens
  | .error malformed => throw (.malformed malformed)

def finish (c : Compiler) (methods : List Method) : Attempt (List Method) := do
  match checkConsistency methods with
  | .error conflict => throw (.conflictingArgument conflict)
  | .ok () =>
    match ← Method.canonicalize c.policy methods with
    | .error (first, second) => throw (.duplicateMethods first.render second.render)
    | .ok finished => return finished

def compile (c : Compiler) (signatures : List String) : Attempt (List Method) := do
  let bound ← signatures.mapM c.bindSignature
  c.finish (c.hook bound)

end Compiler

/-- A compiler together with the signatures that it keeps between runs. -/
structure Session where
  compiler : Compiler
  /-- The signatures that a run without signatures of its own compiles. -/
  signatures : List String

/-- Runs the compiler on the given signatures, which are kept from then on whether or not they
compile, or else on those kept before. -/
def Session.run (session : Session) (given : Option (List String)) :
    Attempt (List Method) × Session :=
  let signatures := given.getD session.signatures
  (session.compiler.compile signatures, { session with signatures })

end MethodSig
