/-!
# File trees

A directory and all that lies below it. Paths are relative to the directory and are lists of names;
two dots lead from a directory to the one around it, and what lies outside the tree is not seen.
-/

namespace MethodSig

abbrev Path := List String

namespace Path

/-- The names in a path. Empty names and single dots stay where they are and are left out. -/
def ofString (s : String) : Path :=
  ((s.splitOn "/").filter fun name => name ≠ "" && name ≠ ".")

/-- The path without two dots, where these lead back to the names in front of them. A path that
leads out of the directory has none. -/
def normalize (path : Path) : Option Path :=
  (path.foldlM (fun names name =>
    if name ≠ ".." then some (name :: names)
    else match names with
      | [] => none
      | _ :: outer => some outer) []).map List.reverse

def render (path : Path) : String :=
  if path.isEmpty then "." else "/".intercalate path

end Path

/-- The number and the text of the error that reading a file ends with. -/
structure ReadError where
  code : Nat
  text : String
deriving DecidableEq, Repr, Inhabited

/-- What lies under a name. -/
inductive Entry where
  | file (content : List UInt8)
  /-- A file that cannot be read. -/
  | unreadable (error : ReadError)
  | directory (entries : List (String × Entry))
deriving Inhabited

namespace Entry

def isDirectory : Entry → Bool
  | directory _ => true
  | _ => false

def entries : Entry → List (String × Entry)
  | directory entries => entries
  | _ => []

/-- The bytes of a file. -/
def read : Entry → Except ReadError (List UInt8)
  | file content => .ok content
  | unreadable error => .error error
  | directory _ => .error ⟨21, "Is a directory"⟩

def empty : Entry :=
  directory []

/-- A directory with one more entry, in the place of one with its name or at the end. -/
def put (name : String) (e : Entry) : List (String × Entry) → List (String × Entry)
  | [] => [(name, e)]
  | (n, old) :: rest => if n = name then (name, e) :: rest else (n, old) :: put name e rest

/-- Puts an entry under a path, with the directories that lead there. A directory that is there
already keeps what lies in it. -/
def add (tree : Entry) (path : Path) (e : Entry) : Entry :=
  match path with
  | [] => if tree.isDirectory && e.isDirectory then tree else e
  | name :: rest =>
    directory (put name (((tree.entries.lookup name).getD empty).add rest e) tree.entries)

/-- The entry that a path leads to, given the directory it starts in and those around it. -/
def walk : Entry → List Entry → Path → Option Entry
  | e, _, [] => some e
  | e, around, name :: rest =>
    if !e.isDirectory then none
    else if name = ".." then
      match around with
      | outer :: others => walk outer others rest
      | [] => walk empty [] rest
    else (e.entries.lookup name).bind fun inner => walk inner (e :: around) rest

def get? (tree : Entry) (path : Path) : Option Entry :=
  tree.walk [] path

mutual

/-- The paths of a directory and of all directories below it, given its own path. -/
def directoriesFrom (path : Path) : Entry → List Path
  | directory entries => path :: directoriesAmong path entries
  | _ => []

/-- The paths of the directories among some entries and of all directories below these. -/
def directoriesAmong (path : Path) : List (String × Entry) → List Path
  | [] => []
  | (name, e) :: rest => directoriesFrom (path ++ [name]) e ++ directoriesAmong path rest

end

end Entry

end MethodSig
