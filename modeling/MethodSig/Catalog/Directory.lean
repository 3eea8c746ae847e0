import MethodSig.Catalog.Scan
import MethodSig.FileTree.Pattern
import MethodSig.Text.Quoted

/-!
# Scanning directories

The files of a directory are scanned one after another in the order of their paths. A file that
cannot be read or is not scanned to its end leaves a warning.
-/

namespace MethodSig

/-- Why a file was not scanned to its end. -/
inductive FileFault where
  | unreadable (path : String) (error : ReadError)
  | scan (fault : ScanFault)
deriving DecidableEq

/-- What is reported for a file that was not scanned to its end. -/
def FileFault.message : FileFault → String
  | .unreadable path error => s!"[Errno {error.code}] {error.text}: {Text.quoted path}"
  | .scan (.undecodable fault) => fault.message
  | .scan (.unknownOwner name) => Text.quoted name

namespace Catalog

variable (parse : Source.Parser)

/-- Registers what a file declares. A path in front of the path of the file is part of its
name. -/
def scanEntry (c : Catalog) (shown : String) (e : Entry) : Logged Catalog := do
  match e.read with
  | .error error =>
    Logged.tell (.failedScan shown (FileFault.unreadable shown error).message)
    return c
  | .ok content =>
    let scanned ← c.scan parse content
    match scanned.fault with
    | none => return scanned.catalog
    | some fault =>
      Logged.tell (.failedScan shown (FileFault.scan fault).message)
      return scanned.catalog

/-- Registers what some files declare, one after another. -/
def scanEntries (c : Catalog) (files : List (String × Entry)) : Logged Catalog :=
  files.foldlM (fun c (shown, e) => c.scanEntry parse shown e) c

/-- Registers what the files of a directory declare whose paths match a pattern. The directory is
shown in front of the paths. -/
def scanDirectory (c : Catalog) (directory : Path) (tree : Entry) (pattern : Pattern) :
    Logged Catalog :=
  c.scanEntries parse ((tree.glob pattern).filterMap fun path =>
    (tree.get? path).map (Path.render (directory ++ path), ·))

end Catalog

end MethodSig
