import Mathlib.Data.List.Forall2
import MethodSig.Proofs.Signature.Generics
import MethodSig.Proofs.Text.Spacing
import MethodSig.Proofs.Type.Text
import MethodSig.Source.Declarations

/-!
# Parameters as they are written

The dimensions of a parameter may stand behind its type and behind its name, and a last parameter
that stands for several arguments has one more. The text that is taken from a parameter has its
element type and all its dimensions, wherever the source has blanks and type arguments.
-/

namespace MethodSig.Source

open Text Signature

/-! ## Spelled types -/

/-- The first text is the second one with blanks and type arguments put in. -/
inductive Spells : List Char → List Char → Prop
  | nil : Spells [] []
  | char {c : Char} {s t : List Char} (hblank : isBlank c = false) (hangle : isAngle c = false)
      (h : Spells s t) : Spells (c :: s) (c :: t)
  | blank {b : Char} {s t : List Char} (hb : isBlank b = true) (h : Spells s t) : Spells (b :: s) t
  | arguments {inside s t : List Char} (hinside : Balanced inside) (h : Spells s t) :
      Spells ('<' :: inside ++ '>' :: s) t

namespace Spells

variable {s t u v : List Char}

theorem append (h : Spells s t) (h' : Spells u v) : Spells (s ++ u) (t ++ v) := by
  induction h with
  | nil => exact h'
  | char hblank hangle _ ih => exact .char hblank hangle ih
  | blank hb _ ih => exact .blank hb ih
  | @arguments inside s t hinside _ ih =>
      rw [List.append_assoc]
      exact .arguments hinside ih

/-- A text without type arguments spells what is left of it without its blanks. -/
theorem of_plain (h : ∀ c ∈ s, isAngle c = false) : Spells s (removeBlanks s) := by
  induction s with
  | nil => exact .nil
  | cons c rest ih =>
      rw [List.forall_mem_cons] at h
      cases hblank : isBlank c with
      | true =>
          rw [removeBlanks_cons_of_isBlank hblank]
          exact .blank hblank (ih h.2)
      | false =>
          rw [removeBlanks_cons_of_not_isBlank hblank]
          exact .char hblank h.1 (ih h.2)

/-- Reading a spelled text from left to right adds what it spells, blanks aside. -/
theorem foldl_read (h : Spells s t) (b : Brackets) : ∃ kept,
    s.foldl Brackets.read b = ⟨b.before, b.text ++ kept⟩ ∧ removeBlanks kept = t := by
  induction h generalizing b with
  | nil => exact ⟨[], by rw [List.append_nil]; rfl, rfl⟩
  | @char c s t hblank hangle _ ih =>
      obtain ⟨kept, hread, hkept⟩ := ih (b.read c)
      rw [Brackets.read_of_plain b hangle, List.append_assoc] at hread
      refine ⟨c :: kept, ?_, ?_⟩
      · rw [List.foldl_cons, Brackets.read_of_plain b hangle, hread]
        rfl
      · rw [removeBlanks_cons_of_not_isBlank hblank]
        exact congrArg _ hkept
  | @blank c s t hc _ ih =>
      have hangle := isAngle_eq_false_of_isBlank hc
      obtain ⟨kept, hread, hkept⟩ := ih (b.read c)
      rw [Brackets.read_of_plain b hangle, List.append_assoc] at hread
      refine ⟨c :: kept, ?_, ?_⟩
      · rw [List.foldl_cons, Brackets.read_of_plain b hangle, hread]
        rfl
      · rw [removeBlanks_cons_of_isBlank hc]
        exact hkept
  | @arguments inside s t hinside _ ih =>
      rw [Brackets.foldl_read_bracketed b hinside]
      exact ih b

/-- What is left of a spelled text without type parameters and blanks is what it spells. -/
theorem removeBlanks_removeTypeParameters (h : Spells s t) :
    removeBlanks (removeTypeParameters s) = t := by
  obtain ⟨kept, hread, hkept⟩ := h.foldl_read ⟨[], []⟩
  rw [removeTypeParameters_eq_outside, outside, hread]
  exact hkept

end Spells

/-! ## Parameters -/

/-- A parameter of a method: its element type, and the numbers of bracket pairs behind the type and
behind the name. -/
inductive Parameter where
  | formal (element : String) (onType onName : ℕ)
  /-- A last parameter that stands for several arguments. -/
  | variadic (element : String) (onType : ℕ)

namespace Parameter

def element : Parameter → String
  | formal element _ _ => element
  | variadic element _ => element

/-- The number of array dimensions over the element type. -/
def dimensions : Parameter → ℕ
  | formal _ onType onName => onType + onName
  | variadic _ onType => onType + 1

/-- The type text of the parameter. -/
def text : Parameter → String
  | formal element onType onName => element ++ Descriptor.dimensionText (onType + onName)
  | variadic element onType => element ++ Descriptor.dimensionText onType ++ "..."

end Parameter

namespace Node

/-- The node spells an element type with some pairs of brackets behind it. -/
structure SpellsType (source : List UInt8) (type : Node) (element : String) (pairs : ℕ) :
    Prop where
  isBase : TypeText.IsBase element.toList
  spells : ∃ text, type.text source = .ok text ∧
    Spells text.toList (element.toList ++ (Descriptor.dimensionText pairs).toList)
  void : type.type = "void_type" → element = "void" ∧ pairs = 0

/-- The number of bracket pairs behind the name of a parameter. -/
def PairsOnName (source : List UInt8) (n : Node) (pairs : ℕ) : Prop :=
  (n.field? "dimensions").elim (pairs = 0) fun dimensions =>
    ∃ text, dimensions.text source = .ok text ∧
      removeBlanks text.toList = (Descriptor.dimensionText pairs).toList

/-- The node is a parameter with neither comments nor annotations in it. -/
inductive IsParameter (source : List UInt8) : Node → Parameter → Prop
  | formal {n type : Node} {element : String} {onType onName : ℕ}
      (hn : n.type = "formal_parameter") (htype : n.field? "type" = some type)
      (hspells : type.SpellsType source element onType) (hname : n.PairsOnName source onName) :
      IsParameter source n (.formal element onType onName)
  | variadic {n type : Node} {element : String} {onType : ℕ} (hn : n.type = "spread_parameter")
      (htype : n.namedChildren.filter (!isBesideType ·) = [type])
      (hspells : type.SpellsType source element onType) :
      IsParameter source n (.variadic element onType)

def isParameterNode (n : Node) : Bool :=
  n.type = "formal_parameter" || n.type = "spread_parameter"

/-- The parameters of a method, in order. -/
def parameterNodes (n : Node) : List Node :=
  ((n.field? "parameters").elim [] namedChildren).filter isParameterNode

variable {source : List UInt8} {n : Node}

theorem SpellsType.typeText_eq {element : String} {pairs : ℕ}
    (h : n.SpellsType source element pairs) :
    n.typeText source = .ok (element ++ Descriptor.dimensionText pairs) := by
  obtain ⟨-, ⟨text, htext, hspells⟩, hvoid⟩ := h
  unfold typeText
  split
  next htype =>
    obtain ⟨rfl, rfl⟩ := hvoid htype
    rfl
  next =>
    rw [htext]
    change Except.ok (String.ofList (removeBlanks (removeTypeParameters text.toList))) = _
    rw [hspells.removeBlanks_removeTypeParameters, ← String.toList_append, String.ofList_toList]

theorem PairsOnName.dimensionsText_eq {pairs : ℕ} (h : n.PairsOnName source pairs) :
    n.dimensionsText source = .ok (Descriptor.dimensionText pairs) := by
  unfold PairsOnName at h
  unfold dimensionsText
  cases hfield : n.field? "dimensions" with
  | none =>
      rw [hfield, Option.elim_none] at h
      rw [h]
      rfl
  | some dimensions =>
      rw [hfield, Option.elim_some] at h
      obtain ⟨text, htext, hpairs⟩ := h
      change (dimensions.text source >>= fun text => _) = _
      rw [htext]
      change Except.ok (String.ofList (removeBlanks text.toList)) = _
      rw [hpairs, String.ofList_toList]

theorem forall_isBase_element {nodes : List Node} {ps : List Parameter}
    (h : List.Forall₂ (IsParameter source) nodes ps) :
    ∀ p ∈ ps, TypeText.IsBase p.element.toList := by
  induction h with
  | nil => exact List.forall_mem_nil _
  | cons hp _ ih =>
      refine List.forall_mem_cons.mpr ⟨?_, ih⟩
      cases hp with
      | formal hn htype hspells hname => exact hspells.isBase
      | variadic hn htype hspells => exact hspells.isBase

theorem IsParameter.parameterText?_eq {p : Parameter} (h : n.IsParameter source p) :
    n.parameterText? source = .ok (some p.text) := by
  unfold parameterText?
  cases h with
  | @formal type element onType onName hn htype hspells hname =>
      rw [if_pos hn, htype]
      dsimp only
      rw [hspells.typeText_eq, hname.dimensionsText_eq]
      change Except.ok (some (element ++ Descriptor.dimensionText onType ++
        Descriptor.dimensionText onName)) = _
      rw [String.append_assoc, TypeText.dimensionText_append_dimensionText]
      rfl
  | @variadic type element onType hn htype hspells =>
      have hfirst : n.namedChildren.find? (!isBesideType ·) = some type := by
        rw [← List.head?_filter, htype]
        rfl
      rw [if_neg (by rw [hn]; decide), if_pos hn, hfirst]
      dsimp only
      rw [hspells.typeText_eq]
      rfl

theorem parameterText?_eq_none (h : n.isParameterNode = false) :
    n.parameterText? source = .ok none := by
  rw [isParameterNode, Bool.or_eq_false_iff, decide_eq_false_iff_not,
    decide_eq_false_iff_not] at h
  rw [parameterText?, if_neg h.1, if_neg h.2]
  rfl

/-- Nodes that are no parameters are left out, and each parameter gives one text. -/
theorem filterMapM_parameterText?_eq {nodes : List Node} {ps : List Parameter}
    (h : List.Forall₂ (IsParameter source) (nodes.filter isParameterNode) ps) :
    nodes.filterMapM (parameterText? source) = .ok (ps.map Parameter.text) := by
  induction nodes generalizing ps with
  | nil =>
      cases h
      rfl
  | cons n rest ih =>
      rw [List.filterMapM_cons]
      cases hn : n.isParameterNode with
      | false =>
          rw [List.filter_cons_of_neg (by simp [hn])] at h
          rw [parameterText?_eq_none hn]
          exact ih h
      | true =>
          rw [List.filter_cons_of_pos hn] at h
          cases h with
          | @cons _ p _ ps hp hps =>
              rw [hp.parameterText?_eq]
              change (do let texts ← rest.filterMapM (parameterText? source)
                         return p.text :: texts) = _
              rw [ih hps]
              rfl

/-- Each parameter gives one type text, in order. -/
theorem parameterTexts_eq {ps : List Parameter}
    (h : List.Forall₂ (IsParameter source) n.parameterNodes ps) :
    n.parameterTexts source = .ok (ps.map Parameter.text) := by
  unfold parameterNodes at h
  unfold parameterTexts
  cases hlist : n.field? "parameters" with
  | none =>
      rw [hlist] at h
      cases h
      rfl
  | some list =>
      rw [hlist] at h
      exact filterMapM_parameterText?_eq h

end Node

end MethodSig.Source
