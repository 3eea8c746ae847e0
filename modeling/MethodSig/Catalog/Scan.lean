import MethodSig.Catalog.Basic
import MethodSig.Log
import MethodSig.Source.Survey

/-!
# Scanning sources into a catalog

What a survey of a source finds is registered step by step, so that a source which cannot be read
to its end leaves behind what was found in front of that place.
-/

namespace MethodSig

open Source

/-- Why a source was not scanned to its end. -/
inductive ScanFault where
  | undecodable (fault : Text.Utf8.Fault)
  | unknownOwner (name : String)
deriving DecidableEq

/-- What scanning a source leaves behind. -/
structure Scanned where
  catalog : Catalog
  /-- What put an end to the scan, if it came to an early end. -/
  fault : Option ScanFault

namespace Catalog

def register (c : Catalog) : Registration → Except String Catalog
  | .type d => .ok (c.insert d)
  | .method owner m => c.addMethod owner m

def registrationEvent? : Registration → Option Event
  | .type d => some (.cataloguedType d.qualifiedName)
  | .method .. => none

def registerAll (c : Catalog) : List Registration → Logged Scanned
  | [] => pure ⟨c, none⟩
  | r :: rest =>
    match c.register r with
    | .error owner => pure ⟨c, some (.unknownOwner owner)⟩
    | .ok c => do
      (registrationEvent? r).forM Logged.tell
      c.registerAll rest

def scanTree (c : Catalog) (source : List UInt8) (root : Node) : Logged Scanned := do
  let s := survey source root
  let scanned ← c.registerAll s.found
  return { scanned with fault := scanned.fault <|> s.fault.map .undecodable }

def scan (parse : Parser) (c : Catalog) (source : List UInt8) : Logged Scanned :=
  c.scanTree source (parse source)

end Catalog

end MethodSig
