import MethodSig.FileTree.Basic
import MethodSig.Settings.Basic
import MethodSig.Text.Utf8

/-!
# Settings of a directory

The settings file of a program lies in the directory that the program works in.
-/

namespace MethodSig.Settings

/-- Why there are no settings. -/
inductive LoadFault where
  | unreadable (error : ReadError)
  | undecodable (fault : Text.Utf8.Fault)
  | invalid (faults : List Validation.Fault)

def fileName : String := ".env"

/-- The text of the settings file, if there is one. -/
def fileText (directory : Entry) : Except LoadFault (Option String) :=
  match directory.get? [fileName] with
  | some (.file content) => some <$> (Text.Utf8.decode content).mapError .undecodable
  | some (.unreadable error) => .error (.unreadable error)
  | _ => .ok none

def ofDirectory (environment : List (String × String)) (directory : Entry) :
    Except LoadFault Settings := do
  let file ← fileText directory
  (load ⟨[], environment, file⟩).toExcept.mapError .invalid

end MethodSig.Settings
