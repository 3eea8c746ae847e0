import MethodSig.Source.Phrase
import MethodSig.Source.Tree

/-!
# Types, annotations and modifiers in a source text

Each of these begins a list of phrases, and is found by the number of phrases that it takes. Zero
says that the list begins with something else.
-/

namespace MethodSig.Source

open Phrase

def covering (type : String) (field : Option String) (children : List Node) (ps : List Phrase) :
    Node :=
  ⟨type, true, (ps.head?.map start).getD 0, (ps.getLast?.map stop).getD 0, field, children⟩

def mark (p : Phrase) : Node :=
  match p with
  | .token t => ⟨t.text, false, t.start, t.stop, none, []⟩
  | .group opening _ stop => ⟨opening.text, false, opening.start, stop, none, []⟩

/-- The phrases of a dotted name behind its first word. -/
def dottedLength : List Phrase → Nat
  | dot :: name :: rest => if dot.isSymbol '.' && name.isWord then 2 + dottedLength rest else 0
  | _ => 0

/-- The phrases of an annotation: its name and perhaps its arguments. -/
def annotationLength : List Phrase → Nat
  | sign :: name :: rest =>
    if sign.isSymbol '@' && name.isWord && name.word ≠ "interface" then
      let named := 2 + dottedLength rest
      if (rest.drop (dottedLength rest)).head?.any (isGroup '(') then named + 1 else named
    else 0
  | _ => 0

def annotationsLength (ps : List Phrase) : Nat :=
  let n := annotationLength ps
  if 0 < n ∧ n ≤ ps.length then n + annotationsLength (ps.drop n) else 0
termination_by ps.length
decreasing_by
  simp only [List.length_drop]
  omega

/-- The phrases up to the angle bracket that closes the given number of open ones. -/
def closingAngle (depth : Nat) : List Phrase → Nat
  | [] => 0
  | p :: rest =>
    if p.isSymbol '<' then 1 + closingAngle (depth + 1) rest
    else if p.isSymbol '>' then
      if depth ≤ 1 then 1 else 1 + closingAngle (depth - 1) rest
    else 1 + closingAngle depth rest

/-- The phrases of type parameters or arguments in angle brackets. -/
def anglesLength (ps : List Phrase) : Nat :=
  if ps.head?.any (isSymbol '<') then closingAngle 0 ps else 0

/-- The phrases of the inner types that follow an outer type. -/
def innerTypesLength (ps : List Phrase) : Nat :=
  let named := 1 + annotationsLength (ps.drop 1)
  if ps.head?.any (isSymbol '.') && (ps.drop named).head?.any isWord && named < ps.length then
    let n := named + 1 + anglesLength (ps.drop (named + 1))
    n + innerTypesLength (ps.drop n)
  else 0
termination_by ps.length
decreasing_by
  simp_all only [Bool.and_eq_true, decide_eq_true_eq, List.length_drop]
  omega

/-- The phrases of array dimensions, each perhaps behind annotations. -/
def dimensionsLength (ps : List Phrase) : Nat :=
  let n := annotationsLength ps
  if (ps.drop n).head?.any (isGroup '[') && n < ps.length then
    n + 1 + dimensionsLength (ps.drop (n + 1))
  else 0
termination_by ps.length
decreasing_by
  simp_all only [Bool.and_eq_true, decide_eq_true_eq, List.length_drop]
  omega

/-- The phrases of a type, no annotations in front of it. -/
def typeLength (ps : List Phrase) : Nat :=
  if ps.head?.any isWord then
    let outer := 1 + anglesLength (ps.drop 1)
    let whole := outer + innerTypesLength (ps.drop outer)
    whole + dimensionsLength (ps.drop whole)
  else 0

/-- The phrases of a type and of the annotations in front of it. -/
def annotatedTypeLength (ps : List Phrase) : Nat :=
  let n := annotationsLength ps
  let type := typeLength (ps.drop n)
  if type = 0 then 0 else n + type

/-- The node of a type. Only the absence of a value is told apart from other types. -/
def typeNode (field : Option String) (ps : List Phrase) : Node :=
  let type := if ps.map word = ["void"] then "void_type" else "type_identifier"
  covering type field [] ps

/-- The keywords that may stand among the modifiers of a declaration. -/
def modifierWords : List String :=
  ["public", "protected", "private", "abstract", "static", "final", "strictfp", "default",
    "synchronized", "native", "transient", "volatile", "sealed"]

/-- The first modifier or annotation, and the number of its phrases. -/
def modifier? (ps : List Phrase) : Option (Node × Nat) :=
  let n := annotationLength ps
  if 0 < n then some (covering "annotation" none [] (ps.take n), n)
  else match ps with
    | p :: rest =>
      if modifierWords.contains p.word then some (mark p, 1)
      else match rest with
        | hyphen :: sealing :: _ =>
          if p.word = "non" && hyphen.isSymbol '-' && sealing.word = "sealed" then
            some ({ covering "non-sealed" none [] (ps.take 3) with named := false }, 3)
          else none
        | _ => none
    | [] => none

/-- The modifiers and annotations in front of a declaration, and the number of their phrases. -/
def modifiersFrom (ps : List Phrase) : List Node × Nat :=
  match modifier? ps with
  | some (node, n) =>
    if 0 < n ∧ n ≤ ps.length then
      let (others, m) := modifiersFrom (ps.drop n)
      (node :: others, n + m)
    else ([], 0)
  | none => ([], 0)
termination_by ps.length
decreasing_by
  simp only [List.length_drop]
  omega

/-- The node of the modifiers in front of a declaration, if there are any, and the number of their
phrases. -/
def modifiers (ps : List Phrase) : List Node × Nat :=
  let (nodes, n) := modifiersFrom ps
  if nodes.isEmpty then ([], 0) else ([covering "modifiers" none nodes (ps.take n)], n)

/-- The types of a list, the commas between them, and the number of their phrases. -/
def typeList (ps : List Phrase) : List Node × Nat :=
  let n := annotatedTypeLength ps
  let type := typeNode none (ps.take n)
  if n = 0 then ([], 0)
  else match h : ps.drop n with
    | comma :: rest =>
      have : rest.length < ps.length := by
        have := congrArg List.length h
        simp only [List.length_drop, List.length_cons] at this
        omega
      if comma.isSymbol ',' then
        let (others, m) := typeList rest
        (type :: mark comma :: others, n + 1 + m)
      else ([type], n)
    | [] => ([type], n)
termination_by ps.length

end MethodSig.Source
