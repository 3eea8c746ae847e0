import MethodSig.Catalog.Declaration
import MethodSig.Signature.Generics
import MethodSig.Signature.Modifier
import MethodSig.Source.Tree
import MethodSig.Text.Blank
import MethodSig.Text.Utf8

/-!
# What a syntax tree declares

The texts of packages, imports, supertypes and parameters are taken from the bytes that their nodes
cover. A range of bytes that is not UTF-8 is no text.
-/

namespace MethodSig.Source.Node

open Text

def text (source : List UInt8) (n : Node) : Except Utf8.Fault String :=
  Utf8.decode ((source.drop n.start).take (n.stop - n.start))

/-- The text of a type, without type arguments and blanks. -/
def typeText (source : List UInt8) (n : Node) : Except Utf8.Fault String :=
  if n.type = "void_type" then .ok "void"
  else do
    let whole ← n.text source
    return String.ofList (removeBlanks (Signature.removeTypeParameters whole.toList))

def isName (n : Node) : Bool :=
  n.type = "scoped_identifier" || n.type = "identifier"

def childrenOf (n : Node) (type : String) : List Node :=
  n.children.filter (·.type = type)

/-- The package of a compilation unit; empty if it declares none. -/
def package (source : List UInt8) (root : Node) : Except Utf8.Fault String :=
  match ((root.childrenOf "package_declaration").flatMap children).find? isName with
  | some name => name.text source
  | none => .ok ""

/-- The name in an import, unless it imports static members. -/
def importName? (n : Node) : Option Node :=
  if n.children.any (·.type = "static") then none else n.children.find? isName

/-- The text of an import. One that is on demand ends in an asterisk. -/
def importText (source : List UInt8) (n name : Node) : Except Utf8.Fault String := do
  let imported ← name.text source
  return if n.children.any (·.type = "asterisk") then imported ++ ".*" else imported

/-- The imports of a compilation unit, in order. -/
def imports (source : List UInt8) (root : Node) : Except Utf8.Fault (List String) :=
  (root.childrenOf "import_declaration").filterMapM fun n =>
    match importName? n with
    | some name => some <$> importText source n name
    | none => .ok none

/-- The modifiers of a declaration, in order. -/
def modifierTexts (n : Node) : List String :=
  ((n.childrenOf "modifiers").flatMap children).map type |>.filter Signature.modifiers.contains

def isSupertypeClause (n : Node) : Bool :=
  ["superclass", "super_interfaces", "extends_interfaces"].contains n.type

def listedTypes (clause : Node) : List Node :=
  clause.children.flatMap fun n =>
    if n.type = "type_list" then n.namedChildren else if n.named then [n] else []

/-- The texts of the supertypes of a declared type, in order. -/
def supertypes (source : List UInt8) (n : Node) : Except Utf8.Fault (List String) :=
  ((n.children.filter isSupertypeClause).flatMap listedTypes).mapM (typeText source)

/-- The text of the dimensions behind the name of a parameter. -/
def dimensionsText (source : List UInt8) (parameter : Node) : Except Utf8.Fault String :=
  match parameter.field? "dimensions" with
  | none => .ok ""
  | some n => do return String.ofList (removeBlanks (← n.text source).toList)

/-- Whether a part of a last parameter stands beside its type. -/
def isBesideType (n : Node) : Bool :=
  n.type = "modifiers" || n.type = "variable_declarator"

/-- The type text of a parameter, if the node is one. The type of a last parameter that stands for
several arguments ends in three dots. -/
def parameterText? (source : List UInt8) (n : Node) : Except Utf8.Fault (Option String) := do
  if n.type = "formal_parameter" then
    match n.field? "type" with
    | none => return none
    | some type => return some ((← type.typeText source) ++ (← n.dimensionsText source))
  else if n.type = "spread_parameter" then
    match n.namedChildren.find? (!isBesideType ·) with
    | none => return none
    | some type => return some ((← type.typeText source) ++ "...")
  else return none

/-- The type texts of the parameters of a method, in order. -/
def parameterTexts (source : List UInt8) (n : Node) : Except Utf8.Fault (List String) :=
  match n.field? "parameters" with
  | none => .ok []
  | some list => list.namedChildren.filterMapM (parameterText? source)

/-- The method that a node declares, if it has a name and a result type. -/
def methodDecl? (source : List UInt8) (n : Node) : Except Utf8.Fault (Option MethodDecl) :=
  match n.field? "name", n.field? "type" with
  | some name, some type => do
    let methodName ← name.text source
    let parameters ← n.parameterTexts source
    return some ⟨methodName, parameters, ← type.typeText source, n.modifierTexts⟩
  | _, _ => .ok none

end MethodSig.Source.Node
