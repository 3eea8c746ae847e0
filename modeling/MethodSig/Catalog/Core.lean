import MethodSig.Catalog.Basic
import MethodSig.Catalog.QualifiedName

/-!
# Core types

The platform types that signatures mention without shipping their sources. Only their names
matter, except for the root class, whose public methods every class inherits.
-/

namespace MethodSig

def objectType : String :=
  "java.lang.Object"

/-- The names of the core types, in order. -/
def coreTypeNames : List String :=
  ["java.io.File", "java.io.InputStream", "java.io.OutputStream", "java.io.Reader",
    "java.io.Writer", "java.lang.Boolean", "java.lang.Byte", "java.lang.CharSequence",
    "java.lang.Character", "java.lang.Class", "java.lang.Double", "java.lang.Enum",
    "java.lang.Exception", "java.lang.Float", "java.lang.Integer", "java.lang.Iterable",
    "java.lang.Long", "java.lang.Number", "java.lang.Object", "java.lang.Runnable",
    "java.lang.RuntimeException", "java.lang.Short", "java.lang.String",
    "java.lang.StringBuilder", "java.lang.Throwable", "java.lang.Void",
    "java.math.BigDecimal", "java.math.BigInteger", "java.net.URI", "java.net.URL",
    "java.nio.ByteBuffer", "java.nio.file.Path", "java.util.Collection", "java.util.Date",
    "java.util.Iterator", "java.util.List", "java.util.Locale", "java.util.Map",
    "java.util.Optional", "java.util.Properties", "java.util.Set", "java.util.UUID"]

def objectMethods : List MethodDecl :=
  [⟨"equals", ["Object"], "boolean", ["public"]⟩,
    ⟨"getClass", [], "Class", ["public", "final", "native"]⟩,
    ⟨"hashCode", [], "int", ["public", "native"]⟩,
    ⟨"notify", [], "void", ["public", "final", "native"]⟩,
    ⟨"notifyAll", [], "void", ["public", "final", "native"]⟩,
    ⟨"toString", [], "String", ["public"]⟩,
    ⟨"wait", [], "void", ["public", "final"]⟩,
    ⟨"wait", ["long"], "void", ["public", "final", "native"]⟩,
    ⟨"wait", ["long", "int"], "void", ["public", "final"]⟩]

def coreDecl (name : String) : TypeDecl :=
  ⟨name, QualifiedName.package name, [], [], false, if name = objectType then objectMethods else []⟩

def Catalog.core : Catalog :=
  (coreTypeNames.map coreDecl).foldl insert empty

end MethodSig
