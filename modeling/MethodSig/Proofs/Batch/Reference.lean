import MethodSig.Proofs.Batch.Compiler
import MethodSig.Proofs.Catalog.Binding
import MethodSig.Proofs.Catalog.QualifiedName
import MethodSig.Proofs.Catalog.Scope

/-!
# Every accessible method can be referred to

A signature that gives the name of a method and the names of its parameter types is bound to a
member of that name and those types. What a parameter text means in the scope of its declaration is
canonical, and the name of a canonical type means the same in a signature.
-/

namespace MethodSig

open Attempt (Returns)

namespace Signature

/-- The names a1, a2 and so on, for as many arguments as there are. -/
def argumentName (i : ℕ) : String :=
  "a" ++ toString (i + 1)

theorem insideIdentifier_of_isDigit {c : Char} (h : c.isDigit = true) :
    insideIdentifier c = true := by
  have hc : c.toNat < 128 := by
    have hle : c.val ≤ '9'.val := by
      simp only [Char.isDigit, Bool.and_eq_true, decide_eq_true_eq] at h
      exact h.2
    exact Nat.lt_of_le_of_lt (UInt32.le_iff_toNat_le.mp hle) (by decide)
  have hascii := Text.of_forall_ascii (p := fun c => !c.isDigit || insideIdentifier c)
    (by decide +kernel) hc
  simpa [h] using hascii

theorem isName_argumentName (i : ℕ) : IsName (argumentName i).toList := by
  have hdigits : ∀ c ∈ Nat.toDigits 10 (i + 1), c.isDigit = true :=
    fun c hc => Nat.isDigit_of_mem_toDigits (by decide) (by decide) hc
  have htext : (argumentName i).toList = 'a' :: Nat.toDigits 10 (i + 1) := by
    simp [argumentName]
  rw [htext]
  refine ⟨?_, ?_⟩
  · rw [isIdentifier, Bool.and_eq_true, List.all_eq_true]
    refine ⟨by decide +kernel, ?_⟩
    intro c hc
    exact insideIdentifier_of_isDigit (hdigits c hc)
  · -- a modifier holds no digit
    have hmodifiers : ∀ m ∈ modifiers, m.toList.all (fun c => !c.isDigit) = true := by decide
    rw [isModifier, List.any_eq_false]
    intro m hm heq
    obtain ⟨c, hc⟩ := List.exists_mem_of_ne_nil _ (Nat.toDigits_ne_nil (n := i + 1) (b := 10))
    have hmem : c ∈ m.toList := by
      rw [eq_of_beq heq]
      exact List.mem_cons_of_mem 'a' hc
    have hdigit := List.all_eq_true.mp (hmodifiers m hm) c hmem
    rw [hdigits c hc] at hdigit
    exact absurd hdigit (by decide)

/-- A signature that refers to a method by its name and parameter types. -/
def reference (name : String) (types : List Descriptor) : String :=
  "void " ++ name ++ "(" ++
    ", ".intercalate (types.zipIdx.map fun (type, i) => type.name ++ " " ++ argumentName i) ++ ")"

theorem reference_eq_methodText (name : String) (types : List Descriptor) :
    reference name types = String.ofList (methodText "void".toList name.toList
      (types.zipIdx.map fun (type, i) => (type.name.toList, (argumentName i).toList)) []) := by
  rw [← String.toList_inj, String.toList_ofList]
  simp [reference, methodText, argumentText, Function.comp_def]

theorem tokenize_reference {name : String} {types : List Descriptor} (hname : IsName name.toList)
    (htypes : ∀ type ∈ types, IsTypeText type.name.toList) :
    tokenize (reference name types) =
      .ok ⟨reference name types, "void", name,
        types.zipIdx.map fun (type, i) => (type.name, argumentName i)⟩ := by
  have hvoid : IsTypeText "void".toList :=
    (QualifiedName.isQualified_of_isName (by decide)).isTypeText
  have harguments : ∀ a ∈ types.zipIdx.map
      (fun (type, i) => (type.name.toList, (argumentName i).toList)), IsArgument a := by
    intro a ha
    obtain ⟨⟨type, i⟩, hmem, rfl⟩ := List.mem_map.mp ha
    exact ⟨htypes type (List.fst_mem_of_mem_zipIdx hmem), isName_argumentName i⟩
  rw [reference_eq_methodText, tokenize_methodText hvoid hname harguments (Or.inl rfl)]
  simp [Function.comp_def]

end Signature

theorem mem_intercalate_singleton {a separator : Char} {parts : List (List Char)}
    (h : a ∈ [separator].intercalate parts) : a = separator ∨ ∃ part ∈ parts, a ∈ part := by
  induction parts with
  | nil => simp at h
  | cons part rest ih =>
      cases rest with
      | nil => exact Or.inr ⟨part, List.mem_cons_self, by simpa using h⟩
      | cons next rest =>
          rw [List.intercalate_cons_cons, List.append_assoc, List.mem_append,
            List.singleton_append, List.mem_cons] at h
          rcases h with h | rfl | h
          · exact Or.inr ⟨part, List.mem_cons_self, h⟩
          · exact Or.inl rfl
          · refine (ih h).imp_right ?_
            rintro ⟨found, hfound, hmem⟩
            exact ⟨found, List.mem_cons_of_mem part hfound, hmem⟩

namespace Catalog

variable {c : Catalog} {namespaceName : String}

/-- Every registered name is made of dot-separated identifiers that hold no dollar sign and are
neither modifiers nor primitives. -/
def NamesAreReferable (c : Catalog) : Prop :=
  ∀ name ∈ c.names, ∀ part ∈ name.toList.splitOn '.',
    Signature.IsName part ∧ '$' ∉ part ∧ String.ofList part ∉ primitiveNames

instance (c : Catalog) : Decidable c.NamesAreReferable :=
  inferInstanceAs (Decidable (∀ name ∈ c.names, ∀ part ∈ name.toList.splitOn '.',
    Signature.IsName part ∧ '$' ∉ part ∧ String.ofList part ∉ primitiveNames))

theorem NamesAreReferable.namesAreQualified (h : c.NamesAreReferable) : c.NamesAreQualified :=
  fun name hname part hpart => (h name hname part hpart).1

/-- A registered type is meant by its own name. -/
theorem isElement_of_contains (hnames : c.NamesAreReferable) {name : String}
    (h : c.contains name = true) : c.IsElement (.named name) := by
  have hname := hnames name ((contains_iff_mem_names c name).mp h)
  have hdollar : '$' ∉ name.toList := by
    intro hmem
    have hjoin : ['.'].intercalate (name.toList.splitOn '.') = name.toList :=
      List.intercalate_splitOn '.'
    rw [← hjoin] at hmem
    rcases mem_intercalate_singleton hmem with hdot | ⟨part, hpart, hmem⟩
    · contradiction
    · exact (hname part hpart).2.1 hmem
  refine .declared ?_ ?_ ?_
  · rw [lookup_eq_some_iff, dotted_eq_self_of_dollar_notMem hdollar]
    exact ⟨h, rfl⟩
  · have := (QualifiedName.isQualified_of_splitOn fun part hpart => (hname part hpart).1).ne_nil
    exact mt String.toList_eq_nil_iff.mpr this
  · intro hprimitive
    have hsplit := Text.splitOn_eq_singleton (dot_notMem_of_mem_primitiveNames hprimitive)
    have hpart := (hname name.toList (by simp [hsplit])).2.2
    rw [String.ofList_toList] at hpart
    exact hpart hprimitive

/-- A scope finds nothing but registered types. -/
theorem findsElements_scope (hnames : c.NamesAreReferable) (d : TypeDecl) :
    c.FindsElements (c.scope namespaceName d) := by
  intro name type _ _ h
  have hfound := (lookupInScope_eq_find? c d name).symm.trans h
  obtain ⟨found, hfind, rfl⟩ := Option.map_eq_some_iff.mp hfound
  exact isElement_of_contains hnames (List.find?_some hfind)

/-- A method that one of the searched types declares is found, or another one of its name and
types. -/
theorem exists_bind_of_declares {target : Descriptor} (htarget : target.kind = .declared)
    {name : String} {types : List Descriptor} {d : TypeDecl}
    (hd : c.IsSearched namespaceName target.name d)
    (hdeclares : c.Declares namespaceName name types d) :
    ∃ member, (c.bind namespaceName target name types).value = some member ∧
      member.name = name ∧ member.parameterTypes = types := by
  rw [bind, if_pos htarget]
  cases hfound : (c.firstMember namespaceName name types
      (c.visits namespaceName target.name)).value with
  | none =>
      rw [value_firstMember_eq_none_iff] at hfound
      exact absurd hdeclares (hfound d (mem_map_decl_visits_iff d |>.mpr hd))
  | some member =>
      obtain ⟨-, owner, -, m, -, -, rfl, -⟩ := exists_of_value_firstMember hfound
      exact ⟨_, rfl, rfl, rfl⟩

/-- The arguments of a signature that refers to a method by its types are built. -/
theorem returns_buildArgument_reference (hnames : c.NamesAreReferable) {types : List Descriptor}
    (htypes : ∀ type ∈ types, c.IsCanonical type) :
    ∃ arguments : List Argument, arguments.map Argument.type = types ∧
      List.Forall₂ (fun token a => Returns ((c.context namespaceName).buildArgument token) a)
        (types.zipIdx.map fun (type, i) => (type.name, Signature.argumentName i)) arguments := by
  refine ⟨types.zipIdx.map fun (type, i) =>
    ⟨Signature.argumentName i, type, (Signature.isName_argumentName i).1⟩, ?_, ?_⟩
  · rw [List.map_map]
    exact List.zipIdx_map_fst 0 types
  · rw [List.forall₂_map_left_iff, List.forall₂_map_right_iff]
    refine List.forall₂_same.mpr ?_
    rintro ⟨type, i⟩ hmem
    have htype := htypes type (List.fst_mem_of_mem_zipIdx hmem)
    exact (Context.returns_buildArgument_iff _ _).mpr
      ⟨htype.resolve?_name hnames.namesAreQualified.namesAreBases, rfl⟩

/-- Every accessible method of the types that a search comes by, whose parameter texts mean types
in the scope of its declaration, can be referred to: a signature of its name and the names of these
types is taken apart and bound to a member of that name and these types. -/
theorem build_reference (hnames : c.NamesAreReferable) {target : Descriptor}
    (htarget : target.kind = .declared) {d : TypeDecl}
    (hd : c.IsSearched namespaceName target.name d) {m : MethodDecl} (hm : m ∈ d.methods)
    (haccessible : d.isAccessible m = true) (hname : Signature.IsName m.name.toList)
    {types : List Descriptor}
    (htypes : m.parameterTypes.map (fun text =>
      ((c.scope namespaceName d).resolve? text).value) = types.map some) :
    ∃ tokens method, Signature.tokenize (Signature.reference m.name types) = .ok tokens ∧
      Returns ((c.context namespaceName).build target tokens) method ∧
      method.member.name = m.name ∧ method.member.parameterTypes = types := by
  have hcanonical : ∀ type ∈ types, c.IsCanonical type := by
    intro type hmem
    have hsome : some type ∈ m.parameterTypes.map (fun text =>
        ((c.scope namespaceName d).resolve? text).value) :=
      htypes ▸ List.mem_map_of_mem hmem
    obtain ⟨text, -, hresolve⟩ := List.mem_map.mp hsome
    exact (findsElements_scope hnames d).isCanonical_of_resolveChars hresolve
  have hvoid : ((c.context namespaceName).resolver.resolve? "void").value =
      some (.primitive "void") := by
    have hprimitive : c.IsElement (.primitive "void") := .primitive (by decide)
    exact hprimitive.resolveChars_name hnames.namesAreQualified.namesAreBases
  obtain ⟨arguments, htypesOf, harguments⟩ :=
    @returns_buildArgument_reference c namespaceName hnames types hcanonical
  obtain ⟨member, hbind, hmemberName, hmemberTypes⟩ :=
    exists_bind_of_declares htarget hd ⟨m, hm, rfl, haccessible, htypes⟩
  have htokens := Signature.tokenize_reference hname fun type hmem =>
    (hcanonical type hmem).isTypeText_name hnames.namesAreQualified
  refine ⟨_, ⟨m.name, .primitive "void", arguments, member, none⟩, htokens, ?_, hmemberName,
    hmemberTypes⟩
  refine (Context.returns_build_iff target _ _).mpr ⟨rfl, hvoid, harguments, ?_, rfl⟩
  rw [Method.argumentTypes, htypesOf]
  exact hbind

/-- A class that inherits a method from another package. The method takes a type that is nested in
its own one, and any number of integers. -/
def inheriting : Catalog :=
  [⟨"p.Api", "p", ["q.Base"], ["Base"], false, []⟩,
    ⟨"q.Base", "q", [], [], false, [⟨"send", ["Message", "int..."], "void", ["public"]⟩]⟩,
    ⟨"q.Base.Message", "q", [], [], false, []⟩].foldl insert empty

/-- The inherited method is referred to by the qualified name of the nested type and by an array. -/
theorem build_reference_inheriting :
    ∃ tokens method, Signature.tokenize (Signature.reference "send"
        [.named "q.Base.Message", .arrayOver (.primitive "int") 1]) = .ok tokens ∧
      Returns ((inheriting.context "").build (.named "p.Api") tokens) method ∧
      method.member.name = "send" ∧
      method.member.parameterTypes =
        [.named "q.Base.Message", .arrayOver (.primitive "int") 1] := by
  have hsearched : inheriting.IsSearched "" "p.Api"
      ⟨"q.Base", "q", [], [], false, [⟨"send", ["Message", "int..."], "void", ["public"]⟩]⟩ := by
    refine Or.inl ⟨1, .supertype (.target rfl) ⟨"Base", ?_, .named "q.Base", ?_, rfl, rfl⟩⟩
    · exact List.mem_singleton_self _
    · decide +kernel
  exact @build_reference inheriting "" (by decide +kernel) (.named "p.Api") rfl _ hsearched _
    (List.mem_singleton_self _) (by decide) (by decide) _ (by decide +kernel)

end Catalog

end MethodSig
