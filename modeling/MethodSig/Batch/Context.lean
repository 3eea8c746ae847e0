import MethodSig.Catalog.Binding

/-!
# Resolution contexts

All that compiling a batch asks of its surroundings: to look qualified names up and to find the
members of a type.
-/

namespace MethodSig

/-- The surroundings in which a batch is compiled. -/
structure Context where
  namespaceName : String
  lookup : String → Option Descriptor
  /-- The member of a type with the given name and exactly the given parameter types. -/
  bind : Descriptor → String → List Descriptor → Logged (Option Member)

def Context.resolver (context : Context) : Resolver :=
  ⟨context.lookup, context.namespaceName⟩

def Catalog.context (c : Catalog) (namespaceName : String) : Context :=
  ⟨namespaceName, c.lookup, c.bind namespaceName⟩

end MethodSig
