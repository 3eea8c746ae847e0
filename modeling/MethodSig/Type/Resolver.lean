import MethodSig.Log
import MethodSig.Type.Descriptor
import MethodSig.Type.Text

/-!
# Resolving type texts

A type text is looked up among the primitives and then as a qualified name. Failing that, array
dimensions are taken off and the base is resolved in the same way, and an unqualified name is
looked up once more in the default namespace.
-/

namespace MethodSig

def primitiveNames : List String :=
  ["boolean", "byte", "char", "short", "int", "long", "float", "double", "void"]

/-- A way to look up qualified names, and the namespace in which unqualified ones are tried. -/
structure Resolver where
  lookup : String → Option Descriptor
  /-- The namespace tried for unqualified names; none if it is empty. -/
  namespaceName : String

namespace Resolver

/-- The type that a normalized text names outright: a primitive or a qualified name. -/
def direct? (r : Resolver) (name : String) : Option Descriptor :=
  if primitiveNames.contains name then some (.primitive name) else r.lookup name

/-- Looks an unqualified name up in the default namespace. -/
def inNamespace (r : Resolver) (name : String) : Logged (Option Descriptor) :=
  if name.contains '.' || r.namespaceName.isEmpty then pure none
  else do
    Logged.tell (.retrying name r.namespaceName)
    return r.lookup (r.namespaceName ++ "." ++ name)

def resolveChars (r : Resolver) (text : List Char) : Logged (Option Descriptor) :=
  let name := TypeText.normalize text
  if name.isEmpty then pure none
  else match r.direct? (String.ofList name) with
    | some d => pure (some d)
    | none =>
      match h : TypeText.arraySuffix? name with
      | some (base, dimensions) =>
        have : base.length < text.length := by
          have := TypeText.length_of_arraySuffix? h
          have := TypeText.dimensions_pos_of_arraySuffix? h
          have : name.length ≤ text.length := TypeText.length_normalize_le text
          omega
        (·.map (·.wrap dimensions)) <$> r.resolveChars base
      | none => r.inNamespace (String.ofList name)
termination_by text.length

/-- Resolves a type text, if any way of looking it up applies. -/
def resolve? (r : Resolver) (text : String) : Logged (Option Descriptor) :=
  r.resolveChars text.toList

/-- Resolves a type text. A text that does not resolve is given back. -/
def resolve (r : Resolver) (text : String) : Logged (Except String Descriptor) :=
  (fun | some d => .ok d | none => .error text) <$> r.resolve? text

end Resolver

end MethodSig
