/-!
# Declarations

What the sources say about types and methods, as written: type texts are not yet resolved.
-/

namespace MethodSig

/-- A method declaration as written in a source. -/
structure MethodDecl where
  name : String
  parameterTypes : List String
  returnType : String
  modifiers : List String
deriving DecidableEq, Repr

/-- A declared type together with the file scope it was declared in. -/
structure TypeDecl where
  qualifiedName : String
  package : String
  imports : List String
  supertypes : List String
  isInterface : Bool
  methods : List MethodDecl
deriving DecidableEq, Repr

/-- Whether a method belongs to its type and not to the instances. -/
def MethodDecl.isStatic (m : MethodDecl) : Bool :=
  m.modifiers.contains "static"

/-- Whether a method is part of the public interface of its type. The methods of an interface are
public unless they are declared private. -/
def TypeDecl.isAccessible (d : TypeDecl) (m : MethodDecl) : Bool :=
  if d.isInterface then !m.modifiers.contains "private" else m.modifiers.contains "public"

end MethodSig
