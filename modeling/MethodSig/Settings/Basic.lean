import MethodSig.Log
import MethodSig.Method.Order
import MethodSig.Settings.File
import MethodSig.Validation.Scalar

/-!
# Settings

Settings come from values given outright, from the environment, from a settings file, and from
defaults, in this order of precedence. All values that are not allowed are reported together.
-/

namespace MethodSig

open Validation

/-- What decides how batches are compiled and sources are scanned. -/
structure Settings where
  defaultNamespace : String
  duplicatePolicy : DuplicatePolicy
  sourceGlob : String
  logLevel : Level
deriving DecidableEq, Repr

namespace Settings

/-- Where the values of settings come from. -/
structure Sources where
  /-- Values given outright, by field. -/
  given : List (String × Json)
  environment : List (String × String)
  file : Option String

/-- The name of a variable that stands for a field, in lower case. -/
def variableName (field : String) : String :=
  "apisig_" ++ field

/-- The value of a variable in any case. Of several, the last is taken. -/
def lookupAnyCase {α : Type} (name : String) (values : List (String × α)) : Option α :=
  (values.reverse.find? fun v => v.1.toLower = name).map Prod.snd

namespace Sources

def inFile? (s : Sources) (field : String) : Option String :=
  s.file.bind fun text =>
    (lookupAnyCase (variableName field)
      (SettingsFile.assignments s.environment (SettingsFile.statements text))).join

/-- The value of a field, if any source has one. -/
def value? (s : Sources) (field : String) : Option Json :=
  s.given.lookup field <|>
    .string <$> lookupAnyCase (variableName field) s.environment <|>
    .string <$> s.inFile? field

/-- The value of a field once it is checked, or a default. -/
def field {α : Type} (s : Sources) (name : String) (default : α) (check : Json → Checked α) :
    Checked α :=
  match s.value? name with
  | some value => (check value).under (.field name)
  | none => .valid default

end Sources

def filledText (value : Json) : Checked String :=
  (text value).andThen fun s => if s.isEmpty then .fault .emptyText else .valid s

/-- One of some words, each of which stands for something. -/
def word {α : Type} (words : List (String × α)) (value : Json) : Checked α :=
  (oneOf "literal_error" (words.map Prod.fst) value).andThen fun s =>
    match words.lookup s with
    | some meant => .valid meant
    | none => .fault (.notAmong "literal_error" (words.map Prod.fst))

def policyWords : List (String × DuplicatePolicy) :=
  [("warn", .warn), ("error", .reject)]

def levelWords : List (String × Level) :=
  [Level.debug, .info, .warning, .error].map fun level => (level.name, level)

def load (s : Sources) : Checked Settings :=
  Settings.mk <$> s.field "default_namespace" "java.lang" filledText <*>
    s.field "duplicate_policy" .warn (word policyWords) <*>
    s.field "source_glob" "*.java" text <*>
    s.field "log_level" .warning (word levelWords)

def policyWord : DuplicatePolicy → String
  | .warn => "warn"
  | .reject => "error"

def toJson (s : Settings) : Json :=
  .object [("default_namespace", .string s.defaultNamespace),
    ("duplicate_policy", .string (policyWord s.duplicatePolicy)),
    ("source_glob", .string s.sourceGlob), ("log_level", .string s.logLevel.name)]

/-- Settings that are kept from one use to the next, once they are loaded. -/
abbrev Kept := Option Settings

/-- The settings that are kept, or else those loaded now, which are kept if they are valid. -/
def Kept.get (kept : Kept) (sources : Sources) : Checked Settings × Kept :=
  match kept with
  | some settings => (.valid settings, kept)
  | none =>
    match load sources with
    | .valid settings => (.valid settings, some settings)
    | .invalid faults => (.invalid faults, none)

/-- The settings as loaded now, whatever was kept before. -/
def Kept.reload (_ : Kept) (sources : Sources) : Checked Settings × Kept :=
  Kept.get none sources

end Settings

end MethodSig
