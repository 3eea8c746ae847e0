import MethodSig.Catalog.Declaration
import MethodSig.Json.Value

/-!
# Declarations as JSON
-/

namespace MethodSig

def Json.ofTexts (texts : List String) : Json :=
  .array (texts.map .string)

def MethodDecl.toJson (m : MethodDecl) : Json :=
  .object [("name", .string m.name), ("parameter_types", .ofTexts m.parameterTypes),
    ("return_type", .string m.returnType), ("modifiers", .ofTexts m.modifiers)]

def TypeDecl.toJson (d : TypeDecl) : Json :=
  .object [("qualified_name", .string d.qualifiedName), ("package", .string d.package),
    ("imports", .ofTexts d.imports), ("supertypes", .ofTexts d.supertypes),
    ("is_interface", .bool d.isInterface), ("methods", .array (d.methods.map MethodDecl.toJson))]

end MethodSig
