/-!
# UTF-8

Strict decoding of UTF-8. Where the bytes are not well formed, decoding stops at the first
sequence that cannot be completed and says where it begins, how many of its bytes were read and
why it was refused.
-/

namespace MethodSig.Text.Utf8

/-- Why a sequence of bytes is no character. -/
inductive Reason where
  | startByte
  | continuationByte
  | truncated
deriving DecidableEq, Repr

/-- A sequence that could not be decoded. -/
structure Fault where
  byte : UInt8
  offset : Nat
  /-- How many of its bytes were read. -/
  length : Nat
  reason : Reason
deriving DecidableEq, Repr

def Reason.message : Reason → String
  | .startByte => "invalid start byte"
  | .continuationByte => "invalid continuation byte"
  | .truncated => "unexpected end of data"

def byteText (b : UInt8) : String :=
  let digits := String.ofList (Nat.toDigits 16 b.toNat)
  if b < 16 then "0x0" ++ digits else "0x" ++ digits

/-- Tells where decoding stopped, and why. -/
def Fault.message (f : Fault) : String :=
  if f.length = 1 then
    s!"'utf-8' codec can't decode byte {byteText f.byte} in position {f.offset}: {f.reason.message}"
  else
    let last := f.offset + f.length - 1
    s!"'utf-8' codec can't decode bytes in position {f.offset}-{last}: {f.reason.message}"

/-- The number of continuation bytes that a first byte asks for. -/
def continuations (b : UInt8) : Option Nat :=
  if b < 0x80 then some 0
  else if b < 0xc2 then none
  else if b < 0xe0 then some 1
  else if b < 0xf0 then some 2
  else if b < 0xf5 then some 3
  else none

/-- The bytes that may stand second after a first byte: overlong forms, surrogates and numbers
beyond the last code point are ruled out here. -/
def mayFollow (first second : UInt8) : Bool :=
  if first = 0xe0 then 0xa0 ≤ second && second ≤ 0xbf
  else if first = 0xed then 0x80 ≤ second && second ≤ 0x9f
  else if first = 0xf0 then 0x90 ≤ second && second ≤ 0xbf
  else if first = 0xf4 then 0x80 ≤ second && second ≤ 0x8f
  else 0x80 ≤ second && second ≤ 0xbf

def isContinuation (b : UInt8) : Bool :=
  0x80 ≤ b && b ≤ 0xbf

/-- Reads the continuation bytes of a sequence into its number, six bits from each. -/
def continuing (wanted read : Nat) (number : Nat) (rest : List UInt8) :
    Except (Nat × Reason) (Nat × List UInt8) :=
  match wanted, rest with
  | 0, rest => .ok (number, rest)
  | _ + 1, [] => .error (read, .truncated)
  | wanted + 1, b :: rest =>
    if isContinuation b then continuing wanted (read + 1) (number * 64 + b.toNat % 64) rest
    else .error (read, .continuationByte)

/-- Decodes the character at the head of the bytes: its code point and the bytes after it, or
the number of bytes read and the reason for refusing them. -/
def decodeHead (b : UInt8) (rest : List UInt8) : Except (Nat × Reason) (Nat × List UInt8) :=
  match continuations b, rest with
  | none, _ => .error (1, .startByte)
  | some 0, rest => .ok (b.toNat, rest)
  | some _, [] => .error (1, .truncated)
  | some (n + 1), second :: rest =>
    if mayFollow b second then
      continuing n 2 (b.toNat % Nat.pow 2 (5 - n) * 64 + second.toNat % 64) rest
    else .error (1, .continuationByte)

theorem length_of_continuing {wanted read number : Nat} {rest : List UInt8} {n : Nat}
    {left : List UInt8} (h : continuing wanted read number rest = .ok (n, left)) :
    left.length ≤ rest.length := by
  induction wanted generalizing read number rest with
  | zero => simp_all [continuing]
  | succ wanted ih =>
    cases rest with
    | nil => simp [continuing] at h
    | cons b rest =>
      unfold continuing at h
      split at h
      · have := ih h
        simp only [List.length_cons]
        omega
      · simp at h

theorem length_of_decodeHead {b : UInt8} {rest left : List UInt8} {n : Nat}
    (h : decodeHead b rest = .ok (n, left)) : left.length ≤ rest.length := by
  unfold decodeHead at h
  split at h
  · simp at h
  · simp_all
  · simp at h
  · split at h
    · have := length_of_continuing h
      simp only [List.length_cons]
      omega
    · simp at h

/-- Decodes bytes that begin at the given offset of a text. -/
def decodeFrom (offset : Nat) (bytes : List UInt8) : Except Fault (List Char) :=
  match bytes with
  | [] => .ok []
  | b :: rest =>
    match h : decodeHead b rest with
    | .error (length, reason) => .error ⟨b, offset, length, reason⟩
    | .ok (n, left) =>
      have := length_of_decodeHead h
      match decodeFrom (offset + (rest.length - left.length) + 1) left with
      | .error fault => .error fault
      | .ok chars => .ok (Char.ofNat n :: chars)
termination_by bytes.length

/-- Decodes a text, or tells where it is not UTF-8. -/
def decode (bytes : List UInt8) : Except Fault String :=
  (decodeFrom 0 bytes).map String.ofList

def encode (s : String) : List UInt8 :=
  s.toUTF8.toList

end MethodSig.Text.Utf8
