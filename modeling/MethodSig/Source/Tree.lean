/-!
# Syntax trees

The tree of a source text. A node covers a range of bytes and may stand in a field of its parent.
Keywords and punctuation are nodes too, but have no name of their own. What reads a source into a
tree is left open: all that follows takes a tree as it comes, whether or not it fits a grammar.
-/

namespace MethodSig.Source

/-- A node of a syntax tree. -/
structure Node where
  /-- What the node is; for keywords and punctuation, their text. -/
  type : String
  /-- Whether the node is more than a keyword or a punctuation mark. -/
  named : Bool
  start : Nat
  stop : Nat
  field : Option String
  children : List Node
deriving Repr, Inhabited

namespace Node

def field? (n : Node) (name : String) : Option Node :=
  n.children.find? (·.field = some name)

/-- The parts that are more than keywords and punctuation. -/
def namedChildren (n : Node) : List Node :=
  n.children.filter Node.named

theorem sizeOf_children_lt (n : Node) : sizeOf n.children < sizeOf n := by
  cases n
  simp only [Node.mk.sizeOf_spec]
  omega

theorem sizeOf_field?_lt {n part : Node} {name : String} (h : n.field? name = some part) :
    sizeOf part < sizeOf n :=
  Nat.lt_trans (List.sizeOf_lt_of_mem (List.mem_of_find?_eq_some h)) (sizeOf_children_lt n)

mutual

/-- Puts a part into the innermost node whose range it lies within. -/
def insert (part : Node) : Node → Node
  | ⟨type, named, start, stop, field, children⟩ =>
    ⟨type, named, start, stop, field, insertAmong part children⟩

/-- Puts a part between two nodes, or into the one whose range it lies within. -/
def insertAmong (part : Node) : List Node → List Node
  | [] => [part]
  | n :: rest =>
    if part.stop ≤ n.start then part :: n :: rest
    else if n.stop ≤ part.start then n :: insertAmong part rest
    else insert part n :: rest

end

end Node

/-- Reads the bytes of a source into its tree. -/
abbrev Parser := List UInt8 → Node

end MethodSig.Source
