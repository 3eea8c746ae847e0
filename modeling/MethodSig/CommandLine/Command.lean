import MethodSig.CommandLine.Words
import MethodSig.FileTree.Basic

/-!
# Commands

There are two commands: one compiles a listing of signatures against a target type, the other
resolves the name of a type. Both may be given a directory of sources.
-/

namespace MethodSig.CommandLine

/-- The names of the commands. -/
inductive CommandName where
  | parse
  | resolve
deriving DecidableEq, Repr

/-- What a program is asked for, before the words of the command are looked at. -/
structure Invocation where
  verbose : Bool
  name : CommandName
  words : List String
deriving DecidableEq, Repr

/-- A file or directory that a path leads to. -/
structure Found (α : Type) where
  path : Path
  content : α

/-- A command with all that it needs. -/
inductive Command where
  /-- Compile a listing against a target type. -/
  | parse (listing : List UInt8) (target : String) (sources : Option (Found Entry)) (asJson : Bool)
  /-- Resolve the name of a type. -/
  | resolve (typeName : String) (sources : Option (Found Entry))

def verboseOption : OptionSpec := ⟨"verbose", some 'v', false⟩

def targetOption : OptionSpec := ⟨"target", some 't', true⟩

def sourceOption : OptionSpec := ⟨"source", some 's', true⟩

def jsonOption : OptionSpec := ⟨"json", none, false⟩

def CommandName.ofWord? : String → Option CommandName
  | "parse" => some .parse
  | "resolve" => some .resolve
  | _ => none

def Invocation.ofWords? (words : List String) : Option Invocation := do
  let read ← readWords [verboseOption] false words
  match read.arguments with
  | [] => none
  | name :: rest => return ⟨read.has verboseOption, ← CommandName.ofWord? name, rest⟩

/-- What a path given on the command line leads to, seen from a directory. An absolute path leads
out of the directory. -/
def find? (directory : Entry) (path : String) : Option (Found Entry) := do
  if path.startsWith "/" then none
  let path ← (Path.ofString path).normalize
  return ⟨path, ← directory.get? path⟩

def findFile? (directory : Entry) (path : String) : Option (List UInt8) := do
  (← find? directory path).content.read.toOption

/-- The directory that the source option names, if it is given. -/
def findSources (directory : Entry) (words : Words) : Option (Option (Found Entry)) := do
  match words.value? sourceOption with
  | none => return none
  | some path =>
    let found ← find? directory path
    if found.content.isDirectory then return some found else none

/-- Reads the words after the name of a command, seen from a directory. -/
def Invocation.command? (invocation : Invocation) (directory : Entry) : Option Command := do
  match invocation.name with
  | .parse =>
    let words ← readWords [targetOption, sourceOption, jsonOption] true invocation.words
    match words.arguments with
    | [path] =>
      return .parse (← findFile? directory path) (← words.value? targetOption)
        (← findSources directory words) (words.has jsonOption)
    | _ => none
  | .resolve =>
    let words ← readWords [sourceOption] true invocation.words
    match words.arguments with
    | [typeName] => return .resolve typeName (← findSources directory words)
    | _ => none

end MethodSig.CommandLine
