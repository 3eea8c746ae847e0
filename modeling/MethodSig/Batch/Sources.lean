import MethodSig.Batch.Context
import MethodSig.Catalog.Core
import MethodSig.Catalog.Directory
import MethodSig.Settings.Basic

/-!
# The context of a source directory

A batch is compiled against the core types, and against the types that the sources in a directory
declare if there is one.
-/

namespace MethodSig

/-- A directory of sources. -/
structure SourceDirectory where
  path : Path
  content : Entry

def Settings.catalog (parse : Source.Parser) (settings : Settings)
    (sources : Option SourceDirectory) : Except PatternFault (Logged Catalog) := do
  match sources with
  | none => return pure .core
  | some directory =>
    let pattern ← Pattern.ofString settings.sourceGlob
    return Catalog.core.scanDirectory parse directory.path directory.content pattern

/-- The context of a source directory, or of the core types alone. -/
def Settings.context (parse : Source.Parser) (settings : Settings)
    (sources : Option SourceDirectory) : Except PatternFault (Logged Context) := do
  let catalog ← settings.catalog parse sources
  return (·.context settings.defaultNamespace) <$> catalog

end MethodSig
