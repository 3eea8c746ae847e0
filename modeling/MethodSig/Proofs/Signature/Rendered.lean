import MethodSig.Proofs.Signature.Generics
import MethodSig.Proofs.Signature.Grammar

/-!
# Signatures that read as their parts

A result type, a name and arguments that are put together to a signature are the tokens of that
signature, with or without a semicolon at its end. Cleaning changes nothing in it.
-/

namespace MethodSig.Signature

open Text

/-- A type text without blanks or modifiers, made of names, dots and square brackets. -/
structure IsTypeText (s : List Char) : Prop where
  ne_nil : s ≠ []
  chars : ∀ c ∈ s, insideIdentifier c = true ∨ c ∈ ".[]".toList
  noModifier : NoModifier s

/-- An argument whose type and name have the form that signatures give them. -/
def IsArgument (a : List Char × List Char) : Prop :=
  IsTypeText a.1 ∧ IsName a.2

/-- The arguments as they stand between the parentheses of a signature. -/
def argumentText (arguments : List (List Char × List Char)) : List Char :=
  [',', ' '].intercalate (arguments.map fun a => a.1 ++ ' ' :: a.2)

/-- A result type, a name and arguments as a signature, given what stands behind the closing
parenthesis. -/
def methodText (resultType name : List Char) (arguments : List (List Char × List Char))
    (ending : List Char) : List Char :=
  resultType ++ ' ' :: (name ++ '(' :: (argumentText arguments ++ ')' :: ending))

def signatureText (resultType name : List Char) (arguments : List (List Char × List Char)) :
    List Char :=
  resultType ++ ' ' :: (name ++ '(' :: (argumentText arguments ++ [')', ';']))

/-! ## Characters -/

theorem IsTypeText.isBlank_eq_false {s : List Char} (hs : IsTypeText s) :
    ∀ c ∈ s, isBlank c = false := by
  intro c hc
  rcases hs.chars c hc with hinside | hmem
  · exact isBlank_eq_false_of_insideIdentifier hinside
  · have hmarks : ".[]".toList.all (!isBlank ·) = true := by decide
    simpa using List.all_eq_true.mp hmarks c hmem

theorem IsName.ne_nil {s : List Char} (hs : IsName s) : s ≠ [] :=
  ne_nil_of_isIdentifier hs.1

theorem IsName.isBlank_eq_false {s : List Char} (hs : IsName s) : ∀ c ∈ s, isBlank c = false :=
  fun c hc => isBlank_eq_false_of_insideIdentifier (insideIdentifier_of_mem hs.1 c hc)

theorem IsName.noModifier {s : List Char} (hs : IsName s) : NoModifier s :=
  (noModifier_iff_of_isIdentifier hs.1).mpr hs.2

theorem argumentText_cons_cons (a b : List Char × List Char)
    (rest : List (List Char × List Char)) :
    argumentText (a :: b :: rest) =
      a.1 ++ ' ' :: (a.2 ++ ',' :: ' ' :: argumentText (b :: rest)) := by
  simp [argumentText]

theorem argumentText_singleton (a : List Char × List Char) :
    argumentText [a] = a.1 ++ ' ' :: a.2 := by
  simp [argumentText]

/-- Only the characters of type texts, blanks and commas stand between the parentheses. -/
theorem insideIdentifier_or_mem_of_mem_argumentText {arguments : List (List Char × List Char)}
    (h : ∀ a ∈ arguments, IsArgument a) :
    ∀ c ∈ argumentText arguments, insideIdentifier c = true ∨ c ∈ ".[] ,".toList := by
  have hargument (a : List Char × List Char) (ha : IsArgument a) (c : Char)
      (hc : c ∈ a.1 ∨ c ∈ a.2) : insideIdentifier c = true ∨ c ∈ ".[] ,".toList := by
    rcases hc with hc | hc
    · refine (ha.1.chars c hc).imp_right ?_
      intro hmem
      exact List.mem_append_left [' ', ','] hmem
    · exact Or.inl (insideIdentifier_of_mem ha.2.1 c hc)
  induction arguments with
  | nil => simp [argumentText]
  | cons a rest ih =>
      obtain ⟨ha, hrest⟩ := List.forall_mem_cons.mp h
      intro c hc
      cases rest with
      | nil =>
          rw [argumentText_singleton, List.mem_append, List.mem_cons] at hc
          rcases hc with hc | rfl | hc
          · exact hargument a ha c (Or.inl hc)
          · exact Or.inr (by decide)
          · exact hargument a ha c (Or.inr hc)
      | cons b rest =>
          simp only [argumentText_cons_cons, List.mem_append, List.mem_cons] at hc
          rcases hc with hc | rfl | hc | rfl | rfl | hc
          · exact hargument a ha c (Or.inl hc)
          · exact Or.inr (by decide)
          · exact hargument a ha c (Or.inr hc)
          · exact Or.inr (by decide)
          · exact Or.inr (by decide)
          · exact ih hrest c hc

/-- A character that stands between the parentheses is not one that does not belong there. -/
theorem notMem_argumentText {arguments : List (List Char × List Char)}
    (h : ∀ a ∈ arguments, IsArgument a) {c : Char} (hc : insideIdentifier c = false)
    (hmark : c ∉ ".[] ,".toList) : c ∉ argumentText arguments := by
  intro hmem
  rcases insideIdentifier_or_mem_of_mem_argumentText h c hmem with hinside | hmem
  · rw [hc] at hinside
    contradiction
  · exact hmark hmem

section Ending

variable {resultType name ending : List Char} {arguments : List (List Char × List Char)}

theorem insideIdentifier_or_mem_of_mem_methodText (hresult : IsTypeText resultType)
    (hname : IsName name) (harguments : ∀ a ∈ arguments, IsArgument a)
    (hending : ending = [] ∨ ending = [';']) :
    ∀ c ∈ methodText resultType name arguments ending,
      insideIdentifier c = true ∨ c ∈ ".[] ,();".toList := by
  intro c hc
  simp only [methodText, List.mem_append, List.mem_cons] at hc
  rcases hc with hc | rfl | hc | rfl | hc | rfl | hc
  · refine (hresult.chars c hc).imp_right ?_
    intro hmem
    exact List.mem_append_left " ,();".toList hmem
  · exact Or.inr (by decide)
  · exact Or.inl (insideIdentifier_of_mem hname.1 c hc)
  · exact Or.inr (by decide)
  · refine (insideIdentifier_or_mem_of_mem_argumentText harguments c hc).imp_right ?_
    intro hmem
    exact List.mem_append_left "();".toList hmem
  · exact Or.inr (by decide)
  · rcases hending with rfl | rfl
    · contradiction
    · rw [List.mem_singleton.mp hc]
      exact Or.inr (by decide)

end Ending

/-! ## Cleaning -/

theorem noModifier_argumentText {arguments : List (List Char × List Char)}
    (h : ∀ a ∈ arguments, IsArgument a) : NoModifier (argumentText arguments) := by
  induction arguments with
  | nil => exact noModifier_nil
  | cons a rest ih =>
      obtain ⟨ha, hrest⟩ := List.forall_mem_cons.mp h
      cases rest with
      | nil =>
          rw [argumentText_singleton, noModifier_append_cons_iff (by decide)]
          exact ⟨ha.1.noModifier, ha.2.noModifier⟩
      | cons b rest =>
          rw [argumentText_cons_cons, noModifier_append_cons_iff (by decide),
            noModifier_append_cons_iff (by decide), noModifier_cons_iff (by decide)]
          exact ⟨ha.1.noModifier, ha.2.noModifier, ih hrest⟩

theorem singleSpaced_argumentText {a : List Char × List Char}
    {rest : List (List Char × List Char)} (h : ∀ b ∈ a :: rest, IsArgument b) :
    SingleSpaced (argumentText (a :: rest)) := by
  induction rest generalizing a with
  | nil =>
      obtain ⟨htype, hname⟩ := h a List.mem_cons_self
      rw [argumentText_singleton]
      exact .cons htype.ne_nil htype.isBlank_eq_false (.word hname.ne_nil hname.isBlank_eq_false)
  | cons b rest ih =>
      obtain ⟨⟨htype, hname⟩, hrest⟩ := List.forall_mem_cons.mp h
      have hword : ∀ c ∈ a.2 ++ [','], isBlank c = false :=
        List.forall_mem_append.mpr
          ⟨hname.isBlank_eq_false, List.forall_mem_singleton.mpr (by decide)⟩
      rw [argumentText_cons_cons, ← List.singleton_append (x := ','), ← List.append_assoc]
      exact .cons htype.ne_nil htype.isBlank_eq_false (.cons (by simp) hword (ih hrest))

section Ending

variable {resultType name ending : List Char} {arguments : List (List Char × List Char)}

theorem noModifier_methodText (hresult : IsTypeText resultType) (hname : IsName name)
    (harguments : ∀ a ∈ arguments, IsArgument a) (hending : ending = [] ∨ ending = [';']) :
    NoModifier (methodText resultType name arguments ending) := by
  have hlast : NoModifier ending := by
    rcases hending with rfl | rfl <;> decide
  rw [methodText, noModifier_append_cons_iff (by decide),
    noModifier_append_cons_iff (by decide), noModifier_append_cons_iff (by decide)]
  exact ⟨hresult.noModifier, hname.noModifier, noModifier_argumentText harguments, hlast⟩

theorem singleSpaced_methodText (hresult : IsTypeText resultType) (hname : IsName name)
    (harguments : ∀ a ∈ arguments, IsArgument a) (hending : ending = [] ∨ ending = [';']) :
    SingleSpaced (methodText resultType name arguments ending) := by
  have hopen : SingleSpaced (name ++ ['(']) :=
    .word (by simp) (List.forall_mem_append.mpr
      ⟨hname.isBlank_eq_false, List.forall_mem_singleton.mpr (by decide)⟩)
  have hclose : SingleSpaced (')' :: ending) := by
    refine .word (by simp) (List.forall_mem_cons.mpr ⟨by decide, ?_⟩)
    rcases hending with rfl | rfl
    · exact List.forall_mem_nil _
    · exact List.forall_mem_singleton.mpr (by decide)
  have hlist : SingleSpaced (name ++ '(' :: (argumentText arguments ++ ')' :: ending)) := by
    rw [← List.singleton_append (x := '('), ← List.append_assoc]
    cases arguments with
    | nil => exact hopen.append hclose
    | cons a rest => exact hopen.append ((singleSpaced_argumentText harguments).append hclose)
  exact .cons hresult.ne_nil hresult.isBlank_eq_false hlist

/-- Cleaning changes nothing in a signature that was put together. -/
theorem clean_methodText (hresult : IsTypeText resultType) (hname : IsName name)
    (harguments : ∀ a ∈ arguments, IsArgument a) (hending : ending = [] ∨ ending = [';']) :
    clean (methodText resultType name arguments ending) =
      methodText resultType name arguments ending := by
  have hangle : '<' ∉ methodText resultType name arguments ending := by
    intro hmem
    have := insideIdentifier_or_mem_of_mem_methodText hresult hname harguments hending '<' hmem
    revert this
    decide
  rw [clean, removeTypeParameters_eq_self hangle,
    blankModifiers_eq_self (noModifier_methodText hresult hname harguments hending),
    (singleSpaced_methodText hresult hname harguments hending).collapse_eq_self]

end Ending

/-! ## Reading -/

/-- An argument that is put together has one space between its type and its name. -/
def typedName (before : List Char) (a : List Char × List Char) : TypedName :=
  ⟨before, a.1, [' '], a.2, []⟩

/-- The arguments of a list that is put together, with a space behind every comma. -/
def typedNames : List (List Char × List Char) → List TypedName
  | [] => []
  | a :: rest => typedName [] a :: rest.map (typedName [' '])

theorem map_token_typedNames (arguments : List (List Char × List Char)) :
    (typedNames arguments).map TypedName.token =
      arguments.map fun a => (String.ofList a.1, String.ofList a.2) := by
  cases arguments with
  | nil => rfl
  | cons a rest => simp [typedNames, typedName, TypedName.token]

theorem wellFormed_typedName {before : List Char} {a : List Char × List Char}
    (hbefore : ∀ c ∈ before, isBlank c = true) (htype : IsTypeText a.1) (hname : IsName a.2) :
    (typedName before a).WellFormed :=
  ⟨hbefore, htype.ne_nil, htype.isBlank_eq_false, by simp [typedName],
    List.forall_mem_singleton.mpr isBlank_space, hname.1, List.forall_mem_nil _⟩

theorem lists_append_argumentText {a : List Char × List Char}
    {rest : List (List Char × List Char)} {before : List Char}
    (h : ∀ b ∈ a :: rest, IsArgument b) (hbefore : ∀ c ∈ before, isBlank c = true) :
    Lists (before ++ argumentText (a :: rest))
      (typedName before a :: rest.map (typedName [' '])) := by
  induction rest generalizing a before with
  | nil =>
      obtain ⟨htype, hname⟩ := h a List.mem_cons_self
      have hlast := Lists.last (wellFormed_typedName hbefore htype hname)
      simpa [TypedName.text, typedName, argumentText_singleton] using hlast
  | cons b rest ih =>
      obtain ⟨⟨htype, hname⟩, hrest⟩ := List.forall_mem_cons.mp h
      have hlists := ih hrest (List.forall_mem_singleton.mpr isBlank_space)
      have hcomma := Lists.comma (wellFormed_typedName hbefore htype hname) hlists
      simpa [TypedName.text, typedName, argumentText_cons_cons] using hcomma

theorem lists_argumentText {arguments : List (List Char × List Char)}
    (h : ∀ a ∈ arguments, IsArgument a) :
    Lists (strip (argumentText arguments)) (typedNames arguments) := by
  cases arguments with
  | nil => exact .nil
  | cons a rest =>
      rw [(singleSpaced_argumentText h).strip_eq_self]
      exact lists_append_argumentText h (List.forall_mem_nil _)

/-- A signature that was put together is taken apart into the same parts. -/
theorem tokenize_methodText {resultType name ending : List Char}
    {arguments : List (List Char × List Char)} (hresult : IsTypeText resultType)
    (hname : IsName name) (harguments : ∀ a ∈ arguments, IsArgument a)
    (hending : ending = [] ∨ ending = [';']) :
    tokenize (String.ofList (methodText resultType name arguments ending)) =
      .ok ⟨String.ofList (methodText resultType name arguments ending),
        String.ofList resultType, String.ofList name,
        arguments.map fun a => (String.ofList a.1, String.ofList a.2)⟩ := by
  let w : WrittenSignature :=
    ⟨typedName [] (resultType, name), argumentText arguments, typedNames arguments, ending⟩
  have hlist {c : Char} (hc : insideIdentifier c = false) (hmark : c ∉ ".[] ,".toList) :
      c ∉ argumentText arguments :=
    notMem_argumentText harguments hc hmark
  have hstrip : strip ending = [] ∨ strip ending = [';'] := by
    rcases hending with rfl | rfl <;> decide
  have hw : w.WellFormed :=
    ⟨wellFormed_typedName (List.forall_mem_nil _) hresult hname, hlist (by decide) (by decide),
      hlist (by decide) (by decide), lists_argumentText harguments, hstrip⟩
  have htext : w.text = methodText resultType name arguments ending := by
    simp [w, WrittenSignature.text, TypedName.text, typedName, methodText]
  refine tokenize_eq_ok_iff.mpr ⟨w, hw, ?_, ?_⟩
  · rw [htext, String.toList_ofList, clean_methodText hresult hname harguments hending]
  · rw [WrittenSignature.tokens, htext, map_token_typedNames]
    rfl

/-! ## Signatures that end in a semicolon -/

section Semicolon

variable {resultType name : List Char} {arguments : List (List Char × List Char)}

theorem insideIdentifier_or_mem_of_mem_signatureText (hresult : IsTypeText resultType)
    (hname : IsName name) (harguments : ∀ a ∈ arguments, IsArgument a) :
    ∀ c ∈ signatureText resultType name arguments,
      insideIdentifier c = true ∨ c ∈ ".[] ,();".toList :=
  insideIdentifier_or_mem_of_mem_methodText hresult hname harguments (Or.inr rfl)

theorem singleSpaced_signatureText (hresult : IsTypeText resultType) (hname : IsName name)
    (harguments : ∀ a ∈ arguments, IsArgument a) :
    SingleSpaced (signatureText resultType name arguments) :=
  singleSpaced_methodText hresult hname harguments (Or.inr rfl)

theorem tokenize_signatureText (hresult : IsTypeText resultType) (hname : IsName name)
    (harguments : ∀ a ∈ arguments, IsArgument a) :
    tokenize (String.ofList (signatureText resultType name arguments)) =
      .ok ⟨String.ofList (signatureText resultType name arguments), String.ofList resultType,
        String.ofList name,
        arguments.map fun a => (String.ofList a.1, String.ofList a.2)⟩ :=
  tokenize_methodText hresult hname harguments (Or.inr rfl)

end Semicolon

end MethodSig.Signature
