import MethodSig.Text.Blank
import MethodSig.Text.Lines
import MethodSig.Text.Utf8

/-!
# Signature listings

A listing holds one signature a line. Blank lines are skipped, and so are comment lines, which
begin with a number sign or with two slashes.
-/

namespace MethodSig.Signature

open Text

/-- Whether a line without its outer blanks is a comment. -/
def isComment (line : List Char) : Bool :=
  "#".toList.isPrefixOf line || "//".toList.isPrefixOf line

/-- The signatures of a listing, in order and without their outer blanks. -/
def signaturesOf (text : String) : List String :=
  ((lines text.toList).map strip).filter (fun line => !line.isEmpty && !isComment line)
    |>.map String.ofList

def readListing (bytes : List UInt8) : Except Utf8.Fault (List String) :=
  (Utf8.decode bytes).map signaturesOf

end MethodSig.Signature
