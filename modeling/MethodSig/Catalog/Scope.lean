import MethodSig.Catalog.Basic
import MethodSig.Catalog.QualifiedName
import MethodSig.Type.Resolver

/-!
# Names in the scope of a declaration

A name written in the file that declares a type may stand for a nested type, an imported type or
a type of the same package. The candidates are tried in a fixed order, and the first that is
registered is meant.
-/

namespace MethodSig.Catalog

/-- Looks a qualified name up. A nested type may be set apart by a dollar sign. -/
def lookup (c : Catalog) (name : String) : Option Descriptor :=
  if c.contains (QualifiedName.dotted name) then some (.named (QualifiedName.dotted name))
  else none

/-- A type and the types that enclose it, going outwards for as long as they are registered. -/
def enclosing (c : Catalog) (name : List Char) : List String :=
  if c.contains (String.ofList name) then
    String.ofList name :: match h : QualifiedName.parent? name with
      | some outer =>
        have := QualifiedName.length_of_parent? h
        c.enclosing outer
      | none => []
  else []
termination_by name.length

def singleImports (d : TypeDecl) (simpleName : String) : List String :=
  d.imports.filter fun i => ("." ++ simpleName).toList.isSuffixOf i.toList

/-- The packages and types whose members are imported on demand. -/
def onDemandImports (d : TypeDecl) : List String :=
  (d.imports.filter fun i => ".*".toList.isSuffixOf i.toList).map
    fun i => String.ofList (i.toList.dropLast.dropLast)

/-- What a simple name may stand for in the scope of a declaration: a member of the declaring type
or of a type around it, a single import, a type of the same package, a type imported on
demand. -/
def candidates (c : Catalog) (d : TypeDecl) (simpleName : String) : List String :=
  (c.enclosing d.qualifiedName.toList).map (· ++ "." ++ simpleName) ++
    singleImports d simpleName ++
    [QualifiedName.inside d.package simpleName] ++
    (onDemandImports d).map (· ++ "." ++ simpleName)

/-- Looks a name up in the scope of a declaration: as a qualified name, and then with its first
segment in the place of each candidate. -/
def lookupInScope (c : Catalog) (d : TypeDecl) (name : String) : Option Descriptor :=
  match c.lookup name with
  | some type => some type
  | none =>
    let (head, rest) := QualifiedName.splitHead name
    let qualified := (c.candidates d head).map fun candidate =>
      if rest.isEmpty then candidate else candidate ++ "." ++ rest
    (qualified.find? c.contains).map .named

/-- The resolver for type texts in the scope of a declaration. -/
def scope (c : Catalog) (namespaceName : String) (d : TypeDecl) : Resolver :=
  ⟨c.lookupInScope d, namespaceName⟩

end MethodSig.Catalog
