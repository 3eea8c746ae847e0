import MethodSig.Proofs.Catalog.Scope
import MethodSig.Proofs.Source.Parameters
import MethodSig.Proofs.Type.Suffix

/-!
# What parameters resolve to

The type text of a parameter resolves to its element type under all dimensions of the parameter,
wherever these are written. This holds in every scope of a catalog without brackets in its names:
whatever a scope puts a name behind, the name is still a part of what is looked up.
-/

namespace MethodSig

open Source

/-! ## Dimensions behind an element type -/

/-- A type under further array dimensions; the type itself if there are none. -/
def Descriptor.dimensioned (d : Descriptor) (n : ℕ) : Descriptor :=
  if n = 0 then d else d.wrap n

theorem Descriptor.wrap_dimensioned (d : Descriptor) (n : ℕ) :
    (d.dimensioned n).wrap 1 = d.dimensioned (n + 1) := by
  unfold dimensioned
  rw [if_neg (Nat.succ_ne_zero n)]
  split
  next h => rw [h]
  next => exact wrap_wrap d n 1

namespace TypeText

/-- A type text whose dimensions are all written as brackets does not end in dots. -/
theorem not_endsArray_dimensionText {element : String} (h : IsBase element.toList) (n : ℕ) :
    ¬ EndsArray (element ++ Descriptor.dimensionText n).toList := by
  have hblank : ∀ c ∈ (element ++ Descriptor.dimensionText n).toList, Text.isBlank c = false := by
    rw [String.toList_append, List.forall_mem_append]
    exact ⟨h.noBlank, fun c hc => isBlank_of_mem_dimensionText hc⟩
  rw [EndsArray, Text.removeBlanks_eq_self hblank, String.toList_append]
  rintro ⟨hbracket, hdots⟩
  cases n with
  | zero =>
      apply hbracket
      rw [Descriptor.dimensionText, String.toList_empty, List.append_nil]
      exact h.noBracket
  | succ n =>
      rw [dimensionText_succ_eq_append, ← List.append_assoc] at hdots
      exact not_suffix_append_pair _ hdots

end TypeText

namespace Resolver

variable {r : Resolver}

theorem KnowsNoBrackets.value_resolve?_dimensionText (hr : r.KnowsNoBrackets) {element : String}
    (h : TypeText.IsBase element.toList) (n : ℕ) :
    (r.resolve? (element ++ Descriptor.dimensionText n)).value =
      (r.resolve? element).value.map (·.dimensioned n) := by
  induction n with
  | zero => simp [Descriptor.dimensionText, Descriptor.dimensioned]
  | succ n ih =>
      have hpair : element ++ Descriptor.dimensionText (n + 1) =
          element ++ Descriptor.dimensionText n ++ "[]" := by
        rw [← TypeText.dimensionText_append_dimensionText, String.append_assoc]
        rfl
      rw [hpair, hr.value_resolve?_append (.inl rfl),
        if_neg (TypeText.not_endsArray_dimensionText h n), ih, Option.map_map]
      simp only [Function.comp_def, Descriptor.wrap_dimensioned]

/-- The type text of a parameter resolves to its element type under all its dimensions. -/
theorem KnowsNoBrackets.value_resolve?_parameter (hr : r.KnowsNoBrackets) {p : Parameter}
    (h : TypeText.IsBase p.element.toList) :
    (r.resolve? p.text).value = (r.resolve? p.element).value.map (·.dimensioned p.dimensions) := by
  cases p with
  | formal element onType onName => exact hr.value_resolve?_dimensionText h (onType + onName)
  | variadic element onType =>
      change TypeText.IsBase element.toList at h
      rw [Parameter.text, hr.value_resolve?_append (.inr rfl),
        if_neg (TypeText.not_endsArray_dimensionText h onType),
        hr.value_resolve?_dimensionText h onType, Option.map_map]
      simp only [Function.comp_def, Descriptor.wrap_dimensioned]
      rfl

end Resolver

/-! ## Scopes know no brackets -/

namespace QualifiedName

theorem suffix_inside (outer name : String) : name.toList <:+ (inside outer name).toList := by
  unfold inside
  split
  · exact List.suffix_rfl
  · exact ⟨(outer ++ ".").toList, by simp⟩

/-- Where a name is cut at its first dot, only that dot is lost. -/
theorem mem_splitHead {name : String} {ch : Char} (hdot : ch ≠ '.') (h : ch ∈ name.toList) :
    ch ∈ (splitHead name).1.toList ∨ ch ∈ (splitHead name).2.toList := by
  simp only [splitHead, String.toList_ofList]
  rw [← List.takeWhile_append_dropWhile (p := (· ≠ '.')) (l := name.toList),
    List.mem_append] at h
  refine h.imp_right ?_
  intro h
  have hhead := List.head?_dropWhile_not (· ≠ '.') name.toList
  cases hdrop : name.toList.dropWhile (· ≠ '.') with
  | nil =>
      rw [hdrop] at h
      contradiction
  | cons first rest =>
      rw [hdrop] at h hhead
      have hfirst : first = '.' := by simpa using hhead
      rw [List.drop_succ_cons, List.drop_zero]
      refine (List.mem_cons.mp h).resolve_left ?_
      rw [hfirst]
      exact hdot

end QualifiedName

namespace Catalog

variable {c : Catalog} {namespaceName name other : String} {d : TypeDecl}

/-- What a simple name may stand for ends in that name. -/
theorem suffix_of_mem_scopedNames (h : other ∈ c.scopedNames d name) :
    name.toList <:+ other.toList := by
  have hmember (outer : String) : name.toList <:+ (outer ++ "." ++ name).toList :=
    ⟨(outer ++ ".").toList, by simp⟩
  rw [scopedNames, List.mem_append, List.mem_append, List.mem_append] at h
  rcases h with ((h | h) | h) | h
  · obtain ⟨outer, -, rfl⟩ := List.mem_map.mp h
    exact hmember outer
  · have hends : ("." ++ name).toList <:+ other.toList :=
      List.isSuffixOf_iff_suffix.mp (List.mem_filter.mp h).2
    rw [String.toList_append] at hends
    exact (List.suffix_append _ _).trans hends
  · exact List.mem_singleton.mp h ▸ QualifiedName.suffix_inside d.package name
  · obtain ⟨outer, -, rfl⟩ := List.mem_map.mp h
    exact hmember outer

/-- Every bracket of a name is in whatever is looked up for it. -/
theorem mem_of_mem_continuedNames {ch : Char} (hch : TypeText.isBracket ch = true)
    (hname : ch ∈ name.toList) (h : other ∈ QualifiedName.dotted name :: c.continuedNames d name) :
    ch ∈ other.toList := by
  have hne {mark : Char} (hmark : TypeText.isBracket mark = false) : ch ≠ mark := by
    rintro rfl
    exact Bool.false_ne_true (hmark.symm.trans hch)
  rcases List.mem_cons.mp h with rfl | h
  · rw [QualifiedName.dotted, String.toList_ofList]
    exact List.mem_map.mpr ⟨ch, hname, if_neg (hne (by decide))⟩
  · obtain ⟨candidate, hcandidate, rfl⟩ := List.mem_map.mp h
    have hplace := QualifiedName.mem_splitHead (hne (by decide)) hname
    have hhead := (suffix_of_mem_scopedNames hcandidate).subset
    split
    next hempty =>
      have hrest : ch ∉ (QualifiedName.splitHead name).2.toList := by
        simp [String.isEmpty_iff.mp hempty]
      exact hhead (hplace.resolve_right hrest)
    next =>
      rw [String.toList_append, String.toList_append, List.append_assoc, List.mem_append]
      refine hplace.imp ?_ ?_
      · intro h
        exact hhead h
      · intro h
        exact List.mem_append_right _ h

theorem knowsNoBrackets_scope (hc : ∀ name ∈ c.names, TypeText.NoBracket name.toList)
    (namespaceName : String) (d : TypeDecl) : (c.scope namespaceName d).KnowsNoBrackets := by
  intro name hname
  refine (c.lookupInScope_eq_find? d name).trans ?_
  rw [Option.map_eq_none_iff, List.find?_eq_none]
  intro other hother hcontains
  apply hname
  intro ch hmem
  by_contra hbracket
  rw [Bool.not_eq_false] at hbracket
  have hplain := hc other ((contains_iff_mem_names c other).mp hcontains) ch
    (mem_of_mem_continuedNames hbracket hmem hother)
  rw [hbracket] at hplain
  contradiction

/-- Each parameter of a method gives one type text, in order, and in every scope the text resolves
to the element type under all dimensions of the parameter, if the element type resolves. -/
theorem parameterTexts_resolve (hc : ∀ name ∈ c.names, TypeText.NoBracket name.toList)
    {source : List UInt8} {n : Node} {ps : List Parameter}
    (h : List.Forall₂ (Node.IsParameter source) n.parameterNodes ps) :
    n.parameterTexts source = .ok (ps.map Parameter.text) ∧
      ∀ namespaceName d, ∀ p ∈ ps, ((c.scope namespaceName d).resolve? p.text).value =
        ((c.scope namespaceName d).resolve? p.element).value.map (·.dimensioned p.dimensions) := by
  refine ⟨Node.parameterTexts_eq h, ?_⟩
  intro namespaceName d p hp
  exact (knowsNoBrackets_scope hc namespaceName d).value_resolve?_parameter
    (Node.forall_isBase_element h p hp)

end Catalog

/-! ## A parameter with dimensions in both places, and a last one for several arguments -/

namespace Dimensions

def text : List UInt8 :=
  Text.Utf8.encode "void f(Item < T > [ ] a [ ], int ... b);"

def first : Node :=
  ⟨"formal_parameter", true, 7, 27, none, [
    ⟨"array_type", true, 7, 21, some "type", []⟩,
    ⟨"identifier", true, 22, 23, some "name", []⟩,
    ⟨"dimensions", true, 24, 27, some "dimensions", []⟩]⟩

def second : Node :=
  ⟨"spread_parameter", true, 29, 38, none, [
    ⟨"integral_type", true, 29, 32, none, []⟩,
    ⟨"variable_declarator", true, 37, 38, none, []⟩]⟩

/-- The syntax tree of the method without its keywords and punctuation. -/
def method : Node :=
  ⟨"method_declaration", true, 0, 40, none, [
    ⟨"void_type", true, 0, 4, some "type", []⟩,
    ⟨"identifier", true, 5, 6, some "name", []⟩,
    ⟨"formal_parameters", true, 6, 39, some "parameters", [first, second]⟩]⟩

theorem isParameter_first : first.IsParameter text (.formal "Item" 1 1) := by
  refine .formal rfl rfl ⟨by decide, ⟨"Item < T > [ ]", by decide +kernel, ?_⟩, by decide⟩ ?_
  · have hname : Spells "Item ".toList "Item".toList :=
      .of_plain (Signature.isAngle_eq_false_of_notMem (by decide) (by decide))
    have hpairs : Spells " [ ]".toList "[]".toList :=
      .of_plain (Signature.isAngle_eq_false_of_notMem (by decide) (by decide))
    have hinside : Signature.Balanced " T ".toList :=
      .of_plain (Signature.isAngle_eq_false_of_notMem (by decide) (by decide))
    exact hname.append (.arguments hinside hpairs)
  · exact ⟨"[ ]", by decide +kernel, by decide⟩

theorem isParameter_second : second.IsParameter text (.variadic "int" 0) := by
  refine .variadic rfl rfl ⟨by decide, ⟨"int", by decide +kernel, ?_⟩, by decide⟩
  exact .of_plain (Signature.isAngle_eq_false_of_notMem (by decide) (by decide))

/-- A generic type in a package. -/
def item : TypeDecl :=
  ⟨"p.Item", "p", [], [], false, []⟩

end Dimensions

theorem Catalog.parameterTexts_resolve_item :
    (∀ name ∈ (empty.insert Dimensions.item).names, TypeText.NoBracket name.toList) ∧
      List.Forall₂ (Node.IsParameter Dimensions.text) Dimensions.method.parameterNodes
        [.formal "Item" 1 1, .variadic "int" 0] ∧
      Dimensions.method.parameterTexts Dimensions.text = .ok ["Item[][]", "int..."] ∧
      (((empty.insert Dimensions.item).scope "" Dimensions.item).resolve? "Item[][]").value =
        some (.arrayOver (.named "p.Item") 2) := by
  have hnames : ∀ name ∈ (empty.insert Dimensions.item).names,
      TypeText.NoBracket name.toList := by
    decide
  have hparameters : List.Forall₂ (Node.IsParameter Dimensions.text)
      Dimensions.method.parameterNodes [.formal "Item" 1 1, .variadic "int" 0] :=
    .cons Dimensions.isParameter_first (.cons Dimensions.isParameter_second .nil)
  obtain ⟨htexts, hresolve⟩ := parameterTexts_resolve hnames hparameters
  have hitem :
      (((empty.insert Dimensions.item).scope "" Dimensions.item).resolve? "Item").value =
        some (.named "p.Item") := by
    decide +kernel
  have hfirst := hresolve "" Dimensions.item (.formal "Item" 1 1) (by simp)
  refine ⟨hnames, hparameters, htexts, hfirst.trans ?_⟩
  exact congrArg _ hitem

end MethodSig
