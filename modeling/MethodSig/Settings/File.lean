import MethodSig.Text.Blank
import MethodSig.Text.Lines

/-!
# Settings files

A settings file holds one assignment of a value to a name per statement. Values may be quoted, and
quoted values may span lines. What stands between `$` and braces in a value is replaced by the
value of the name inside the braces.
-/

namespace MethodSig.SettingsFile

open Text

/-- A reader of statements. Where one fails, the text that is left is kept. -/
abbrev Reading := EStateM Unit (List Char)

/-- What a statement says. -/
inductive Statement where
  /-- Nothing: a comment or the end of the file. -/
  | nothing
  /-- A name and its value, if there is an equals sign behind the name. -/
  | assignment (name : String) (value : Option String)
  /-- The statement that begins on this line cannot be read. -/
  | unreadable (line : Nat)
deriving DecidableEq, Repr

def isInlineBlank (c : Char) : Bool :=
  isBlank c && c ≠ '\n' && c ≠ '\r'

def isInline (c : Char) : Bool :=
  c ≠ '\n' && c ≠ '\r'

/-- The characters up to the first that fails the test. -/
def charsWhile (p : Char → Bool) : Reading (List Char) :=
  modifyGet fun s => (s.takeWhile p, s.dropWhile p)

/-- The characters up to the first that fails the test, of which there must be one. -/
def someCharsWhile (p : Char → Bool) : Reading (List Char) := do
  if (← get).head?.any p then charsWhile p else throw ()

def skipExport : Reading Unit :=
  modify fun s =>
    let after := s.drop 6
    if "export".toList.isPrefixOf s && after.head?.any isInlineBlank then
      after.dropWhile isInlineBlank
    else s

/-- The text inside quotes and the text behind them, the opening quote being read already. A
quote behind a backslash does not close the text, unless no other quote does. -/
def closeQuote? (quote : Char) : List Char → Option (List Char × List Char)
  | [] => none
  | '\\' :: c :: rest =>
    if c = quote then
      match closeQuote? quote rest with
      | some (inside, after) => some ('\\' :: c :: inside, after)
      | none => some (['\\'], rest)
    else (closeQuote? quote (c :: rest)).map fun (inside, after) => ('\\' :: inside, after)
  | c :: rest =>
    if c = quote then some ([], rest)
    else (closeQuote? quote rest).map fun (inside, after) => (c :: inside, after)

def singleEscapes : List (Char × Char) :=
  [('\\', '\\'), ('\'', '\'')]

def doubleEscapes : List (Char × Char) :=
  [('\\', '\\'), ('\'', '\''), ('"', '"'), ('a', '\x07'), ('b', '\x08'), ('f', '\x0c'),
    ('n', '\n'), ('r', '\r'), ('t', '\t'), ('v', '\x0b')]

/-- The text with its escapes replaced by what they stand for. Other backslashes stay. -/
def unescape (escapes : List (Char × Char)) : List Char → List Char
  | '\\' :: c :: rest =>
    match escapes.lookup c with
    | some meant => meant :: unescape escapes rest
    | none => '\\' :: unescape escapes (c :: rest)
  | c :: rest => c :: unescape escapes rest
  | [] => []

def quotedValue (quote : Char) (escapes : List (Char × Char)) : Reading (List Char) := do
  match closeQuote? quote ((← get).drop 1) with
  | some (inside, after) =>
    set after
    return unescape escapes inside
  | none => throw ()

/-- The text up to the first blanks with a number sign behind them. -/
def beforeComment : List Char → List Char
  | [] => []
  | c :: rest =>
    if isBlank c && (rest.dropWhile isBlank).head? = some '#' then []
    else c :: beforeComment rest

def stripEnd (s : List Char) : List Char :=
  (s.reverse.dropWhile isBlank).reverse

def value : Reading (List Char) := do
  match (← get).head? with
  | some '\'' => quotedValue '\'' singleEscapes
  | some '"' => quotedValue '"' doubleEscapes
  | _ => return stripEnd (beforeComment (← charsWhile isInline))

/-- The name at the beginning of a statement, if the statement is not a comment. -/
def name? : Reading (Option (List Char)) := do
  match ← get with
  | '#' :: _ => return none
  | '\'' :: rest =>
    set rest
    let name ← someCharsWhile (· ≠ '\'')
    match ← get with
    | _ :: after => set after; return some name
    | [] => set ('\'' :: rest); throw ()
  | _ => some <$> someCharsWhile fun c => c ≠ '=' && c ≠ '#' && !isBlank c

/-- The end of the line that a statement stands on, perhaps behind a comment. -/
def endOfLine : Reading Unit := do
  let rest := (← get).dropWhile isInlineBlank
  match if rest.head? = some '#' then rest.dropWhile isInline else rest with
  | [] => set ([] : List Char)
  | '\r' :: '\n' :: after => set after
  | c :: after => if isInline c then throw () else set after

/-- A statement, and the blanks and empty lines in front of it. -/
def statement : Reading Statement := do
  modify (·.dropWhile isBlank)
  if (← get).isEmpty then return .nothing
  skipExport
  let name ← name?
  modify (·.dropWhile isInlineBlank)
  let value ← match ← get with
    | '=' :: rest => set (rest.dropWhile isInlineBlank); some <$> value
    | _ => pure none
  endOfLine
  match name with
  | some name => return .assignment (String.ofList name) (value.map String.ofList)
  | none => return .nothing

/-- Reads one statement. If that fails, the rest of its line is passed over. -/
def next (line : Nat) (s : List Char) : Statement × List Char :=
  match statement.run s with
  | .ok found rest => (found, rest)
  | .error _ rest => (.unreadable line, (rest.dropWhile isInline).drop 1)

/-- The statements of a text whose first line has the given number. -/
def statementsFrom (line : Nat) (s : List Char) : List Statement :=
  if s.isEmpty then []
  else
    let (found, rest) := next line s
    if rest.length < s.length then
      let passed := s.take (s.length - rest.length)
      found :: statementsFrom (line + passed.count '\n') rest
    else [found]
termination_by s.length

def statements (text : String) : List Statement :=
  statementsFrom 1 (unifyNewlines text.toList)

/-- The value that a name in braces stands for. The name may be followed by a default, behind a
colon and a hyphen. -/
def substitute? (lookup : String → Option String) (s : List Char) :
    Option (List Char × List Char) :=
  let name := s.takeWhile fun c => c ≠ '\x7d' && c ≠ ':'
  let found (default : List Char) := ((lookup (String.ofList name)).map String.toList).getD default
  match s.drop name.length with
  | '\x7d' :: rest => some (found [], rest)
  | ':' :: '-' :: after =>
    match after.dropWhile (· ≠ '\x7d') with
    | _ :: rest => some (found (after.takeWhile (· ≠ '\x7d')), rest)
    | [] => none
  | _ => none

/-- The value with everything between a dollar sign and braces replaced. -/
def interpolate (lookup : String → Option String) (s : List Char) : List Char :=
  match s with
  | '$' :: '\x7b' :: rest =>
    match substitute? lookup rest with
    | some (meant, after) =>
      if after.length < rest.length then meant ++ interpolate lookup after else meant
    | none => '$' :: interpolate lookup ('\x7b' :: rest)
  | c :: rest => c :: interpolate lookup rest
  | [] => []
termination_by s.length

/-- Puts a value in the place of the one with its name, or at the end. -/
def put {α : Type} (name : String) (value : α) : List (String × α) → List (String × α)
  | [] => [(name, value)]
  | (n, v) :: rest => if n = name then (name, value) :: rest else (n, v) :: put name value rest

/-- The value that a name in braces has: the one assigned before it, or the one in the
environment. -/
def meaning (environment : List (String × String)) (assigned : List (String × Option String))
    (name : String) : Option String :=
  match assigned.lookup name with
  | some value => some (value.getD "")
  | none => environment.lookup name

/-- The names of a settings file in the order of their first assignment, each with the value
assigned last. -/
def assignments (environment : List (String × String)) (found : List Statement) :
    List (String × Option String) :=
  found.foldl (fun assigned statement =>
    match statement with
    | .assignment name value =>
      let lookup := meaning environment assigned
      put name (value.map fun s => String.ofList (interpolate lookup s.toList)) assigned
    | _ => assigned) []

end MethodSig.SettingsFile
