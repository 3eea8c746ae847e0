import MethodSig.FileTree.Basic
import MethodSig.FileTree.Wildcard
import MethodSig.Text.Order

/-!
# Path patterns

A pattern is a path whose names may be wildcards. Two asterisks for a name stand for any number of
directories. A pattern that ends in a slash selects directories only.
-/

namespace MethodSig

/-- A name in a pattern. -/
inductive PatternName where
  | anyDepth
  | exactly (name : String)
  | wildcard (parts : List WildcardPart)
  /-- The end of a pattern for directories only. -/
  | itself
deriving DecidableEq, Repr

/-- Why a text is no pattern. -/
inductive PatternFault where
  | absolute
  /-- Two asterisks stand beside other characters in a name. -/
  | partialDepth
deriving DecidableEq, Repr

def PatternFault.message : PatternFault → String
  | .absolute => "Non-relative patterns are unsupported"
  | .partialDepth => "Invalid pattern: '**' can only be an entire path component"

/-- The names of a pattern, at least one of which is behind any number of directories. -/
structure Pattern where
  names : List PatternName
deriving DecidableEq, Repr

def hasDoubleAsterisk : List Char → Bool
  | '*' :: '*' :: _ => true
  | _ :: rest => hasDoubleAsterisk rest
  | [] => false

def PatternName.ofString (s : String) : Except PatternFault PatternName :=
  if s = "**" then .ok .anyDepth
  else if hasDoubleAsterisk s.toList then .error .partialDepth
  else if s.toList.any "*?[".toList.contains then .ok (.wildcard (WildcardPart.parse s.toList))
  else .ok (.exactly s)

/-- Reads a pattern, which applies at any depth. -/
def Pattern.ofString (s : String) : Except PatternFault Pattern := do
  if s.startsWith "/" then throw .absolute
  let names ← (Path.ofString s).mapM PatternName.ofString
  return ⟨.anyDepth :: names ++ if s.endsWith "/" then [.itself] else []⟩

namespace Entry

/-- Whether a path leads to an entry, which must be a directory if asked for. -/
def leadsOn (tree : Entry) (directoryOnly : Bool) (path : Path) : Bool :=
  (tree.get? path).any fun e => e.isDirectory || !directoryOnly

/-- The paths that the names of a pattern lead to from a directory. -/
def select (tree : Entry) (path : Path) : List PatternName → List Path
  | [] => [path]
  | .itself :: _ => [path]
  | .anyDepth :: rest =>
    (((tree.get? path).map (directoriesFrom path)).getD []).flatMap fun d => tree.select d rest
  | .exactly name :: rest =>
    if tree.leadsOn (!rest.isEmpty) (path ++ [name]) then tree.select (path ++ [name]) rest else []
  | .wildcard parts :: rest =>
    (((tree.get? path).map entries).getD []).flatMap fun (name, e) =>
      if WildcardPart.matchAll parts name.toList && (e.isDirectory || rest.isEmpty) then
        tree.select (path ++ [name]) rest
      else []

/-- The paths that a pattern selects, each once, ordered name by name. -/
def glob (tree : Entry) (pattern : Pattern) : List Path :=
  (tree.select [] pattern.names).eraseDups.mergeSort fun a b => !Text.textsBefore b a

end Entry

end MethodSig
