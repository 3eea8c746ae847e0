/-!
# Type descriptors

A descriptor names a resolved type. Arrays carry the descriptor of their innermost element and
the number of their dimensions.
-/

namespace MethodSig

/-- The kinds of type. -/
inductive Kind where
  | primitive
  | declared
  | array
deriving DecidableEq, Repr, Inhabited

/-- A resolved type. -/
structure Descriptor where
  kind : Kind
  name : String
  /-- The element type of an array. -/
  component : Option Descriptor
  dimensions : Nat
deriving Repr, Inhabited

namespace Descriptor

/-- Decides whether two descriptors agree in every field. -/
def decEq : (a b : Descriptor) → Decidable (a = b)
  | ⟨k, n, none, d⟩, ⟨k', n', none, d'⟩ =>
    if h : k = k' ∧ n = n' ∧ d = d' then isTrue (by simp [h])
    else isFalse (by simpa using h)
  | ⟨_, _, none, _⟩, ⟨_, _, some _, _⟩ => isFalse (by simp)
  | ⟨_, _, some _, _⟩, ⟨_, _, none, _⟩ => isFalse (by simp)
  | ⟨k, n, some c, d⟩, ⟨k', n', some c', d'⟩ =>
    have := decEq c c'
    if h : k = k' ∧ n = n' ∧ c = c' ∧ d = d' then isTrue (by simp [h])
    else isFalse (by simpa using h)

instance : DecidableEq Descriptor := decEq

/-- The number of descriptors within one another: the descriptor and its components. -/
def levels : Descriptor → Nat
  | ⟨_, _, none, _⟩ => 1
  | ⟨_, _, some component, _⟩ => component.levels + 1

def primitive (name : String) : Descriptor :=
  ⟨.primitive, name, none, 0⟩

/-- The class or interface of the given qualified name. -/
def named (qualifiedName : String) : Descriptor :=
  ⟨.declared, qualifiedName, none, 0⟩

def dimensionText : Nat → String
  | 0 => ""
  | n + 1 => "[]" ++ dimensionText n

/-- An array of the given dimensions over an element that is itself no array. -/
def arrayOver (element : Descriptor) (dimensions : Nat) : Descriptor :=
  ⟨.array, element.name ++ dimensionText dimensions, some element, dimensions⟩

/-- Wraps a type in further array dimensions. An array that is wrapped keeps its innermost
element and adds up the dimensions. -/
def wrap (d : Descriptor) (dimensions : Nat) : Descriptor :=
  match d.kind, d.component with
  | .array, some element => arrayOver element (dimensions + d.dimensions)
  | _, _ => arrayOver d dimensions

/-- Wraps a type in array dimensions, of which there must be at least one. A number that is not
positive is given back. -/
def arrayOf (d : Descriptor) (dimensions : Int) : Except Int Descriptor :=
  if dimensions < 1 then .error dimensions else .ok (d.wrap dimensions.toNat)

/-- The primitive that stands for the absence of a value. -/
def isVoid (d : Descriptor) : Bool :=
  d.kind = .primitive && d.name = "void"

end Descriptor

end MethodSig
