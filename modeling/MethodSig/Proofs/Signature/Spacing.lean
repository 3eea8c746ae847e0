import MethodSig.Proofs.Signature.Cells
import MethodSig.Proofs.Signature.Generics
import MethodSig.Proofs.Signature.Marks

/-!
# Blanks that are put into a signature

A blank in type parameters is removed with them. Elsewhere a blank changes nothing that is read if
it is put beside a blank or a separator of the signature or at one of its ends, and it makes the
signature malformed if it is put inside a type or a name.
-/

namespace MethodSig.Signature

open Text

variable {s t u v : List Char} {b : Char} {n : ℕ}

/-- The text of a signature without its type parameters and modifiers. -/
def bare (s : List Char) : List Char :=
  blankModifiers (removeTypeParameters s)

theorem clean_eq (s : List Char) : clean s = collapse (bare s) :=
  rfl

/-- Each modifier stands on one side of the place between the two texts. -/
def KeepsModifiers (u v : List Char) : Prop :=
  bare (u ++ v) = bare u ++ bare v

instance (u v : List Char) : Decidable (KeepsModifiers u v) :=
  inferInstanceAs (Decidable (_ = _))

/-- The second text is the first one with blanks put into it one after the other. The number counts
the blanks that are put neither in type parameters nor at an edge. -/
inductive Spaced (s : List Char) : List Char → ℕ → Prop
  | refl : Spaced s s 0
  | hidden {u v : List Char} {b : Char} {n : ℕ} (h : Spaced s (u ++ v) n)
      (hb : isBlank b = true) (hin : InTypeParameters u v) : Spaced s (u ++ b :: v) n
  | edge {u v : List Char} {b : Char} {n : ℕ} (h : Spaced s (u ++ v) n)
      (hb : isBlank b = true) (hout : ¬ InTypeParameters u v) (hkeeps : KeepsModifiers u v)
      (hedge : IsEdge (bare u) (bare v)) : Spaced s (u ++ b :: v) n
  | cut {u v : List Char} {b : Char} {n : ℕ} (h : Spaced s (u ++ v) n)
      (hb : isBlank b = true) (hout : ¬ InTypeParameters u v) (hkeeps : KeepsModifiers u v)
      (hedge : ¬ IsEdge (bare u) (bare v)) : Spaced s (u ++ b :: v) (n + 1)

/-! ## The bare text -/

theorem removeTypeParameters_cons_of_isBlank (hb : isBlank b = true) (v : List Char) :
    removeTypeParameters (b :: v) = b :: removeTypeParameters v := by
  have hopening : '<' ∉ [b] := by
    rw [List.mem_singleton]
    rintro rfl
    contradiction
  have hsingle := removeTypeParameters_eq_self hopening
  have hout : ¬ InTypeParameters [b] v := by
    rintro ⟨hmem, -⟩
    rw [hsingle] at hmem
    exact hopening hmem
  have happend := removeTypeParameters_append_of_not_in hout
  rwa [hsingle] at happend

theorem bare_insert_of_in (hin : InTypeParameters u v) (hb : isBlank b = true) :
    bare (u ++ b :: v) = bare (u ++ v) := by
  have hplain : ∀ c ∈ [b], isAngle c = false :=
    List.forall_mem_singleton.mpr (isAngle_eq_false_of_isBlank hb)
  have hinsert := removeTypeParameters_insert_of_in hin hplain
  rw [List.singleton_append] at hinsert
  rw [bare, hinsert, bare]

theorem bare_insert_of_not_in (hout : ¬ InTypeParameters u v) (hb : isBlank b = true) :
    bare (u ++ b :: v) = bare u ++ b :: bare v := by
  have hcons := removeTypeParameters_cons_of_isBlank hb v
  have hout' : ¬ InTypeParameters u (b :: v) := by
    rintro ⟨hopening, hclosing⟩
    rw [hcons, List.mem_cons] at hclosing
    refine hout ⟨hopening, hclosing.resolve_left ?_⟩
    rintro rfl
    contradiction
  rw [bare, removeTypeParameters_append_of_not_in hout', hcons,
    blankModifiers_append_cons (insideIdentifier_eq_false_of_isBlank hb), bare, bare]

/-! ## Finer cells -/

/-- The second cell has at least as many words as the first, and some only if the first has
some. -/
def IsFiner (ws ws' : List (List Char)) : Prop :=
  ws.length ≤ ws'.length ∧ (ws = [] → ws' = [])

theorem IsFiner.eq_nil_iff {ws ws' : List (List Char)} (h : IsFiner ws ws') :
    ws = [] ↔ ws' = [] := by
  refine ⟨h.2, ?_⟩
  rintro rfl
  exact List.length_eq_zero_iff.mp (Nat.le_zero.mp h.1)

/-- The words of each cell stay or are cut into more words, by as many as are counted. -/
structure Refines (cuts : ℕ) (before behind : List (List (List Char))) : Prop where
  eq_of_eq_zero : cuts = 0 → behind = before
  cells : List.Forall₂ IsFiner before behind
  total : behind.flatten.length = before.flatten.length + cuts

theorem Refines.refl (T : List (List (List Char))) : Refines 0 T T :=
  ⟨fun _ => rfl, List.forall₂_same.mpr fun _ _ => ⟨le_refl _, id⟩, rfl⟩

/-- A cell with words may be cut further. -/
theorem forall₂_isFiner_of_length {T before behind : List (List (List Char))}
    {ws ws' : List (List Char)} (h : List.Forall₂ IsFiner T (before ++ ws :: behind))
    (hne : ws ≠ []) (hle : ws.length ≤ ws'.length) :
    List.Forall₂ IsFiner T (before ++ ws' :: behind) := by
  induction before generalizing T with
  | nil =>
      obtain ⟨w, T, hw, htail, rfl⟩ := List.forall₂_cons_right_iff.mp h
      exact .cons ⟨hw.1.trans hle, fun hnil => absurd (hw.2 hnil) hne⟩ htail
  | cons x before ih =>
      obtain ⟨w, T, hw, htail, rfl⟩ := List.forall₂_cons_right_iff.mp h
      exact .cons hw (ih htail)

theorem Refines.split {T before behind : List (List (List Char))} {ws ws' : List (List Char)}
    (h : Refines n T (before ++ ws :: behind)) (hne : ws ≠ [])
    (hlength : ws'.length = ws.length + 1) : Refines (n + 1) T (before ++ ws' :: behind) := by
  refine ⟨fun h => absurd h (Nat.succ_ne_zero n), ?_, ?_⟩
  · exact forall₂_isFiner_of_length h.cells hne (by omega)
  · have htotal := h.total
    simp only [List.flatten_append, List.flatten_cons, List.length_append] at htotal ⊢
    omega

namespace Spaced

theorem removeBlanks_bare (h : Spaced s t n) : removeBlanks (bare t) = removeBlanks (bare s) := by
  induction h with
  | refl => rfl
  | hidden _ hb hin ih => rw [bare_insert_of_in hin hb, ih]
  | edge _ hb hout hkeeps _ ih =>
      rw [bare_insert_of_not_in hout hb, removeBlanks_insert hb, ← hkeeps, ih]
  | cut _ hb hout hkeeps _ ih =>
      rw [bare_insert_of_not_in hout hb, removeBlanks_insert hb, ← hkeeps, ih]

theorem refines (h : Spaced s t n) : Refines n (cellWords (bare s)) (cellWords (bare t)) := by
  induction h with
  | refl => exact .refl _
  | hidden _ hb hin ih => rwa [bare_insert_of_in hin hb]
  | edge _ hb hout hkeeps hedge ih =>
      rwa [bare_insert_of_not_in hout hb, cellWords_insert_of_isEdge hedge hb, ← hkeeps]
  | cut _ hb hout hkeeps hedge ih =>
      obtain ⟨before, ws, ws', behind, hcells, hinsert, hne, hlength⟩ :=
        exists_cellWords_insert hedge hb
      rw [hkeeps, hcells] at ih
      rw [bare_insert_of_not_in hout hb, hinsert]
      exact ih.split hne hlength

end Spaced

theorem forall_mem_of_forall₂ {α β : Type} {R : α → β → Prop} {P : β → Prop} {L : List α}
    {L' : List β} (h : List.Forall₂ R L L') (hP : ∀ x x', x ∈ L → R x x' → P x') :
    ∀ x' ∈ L', P x' := by
  induction h with
  | nil => exact List.forall_mem_nil _
  | @cons x x' _ _ hx _ ih =>
      refine List.forall_mem_cons.mpr ⟨hP x x' List.mem_cons_self hx, ih ?_⟩
      exact fun y y' hy => hP y y' (List.mem_cons_of_mem x hy)

namespace WrittenSignature

variable {w w' : WrittenSignature}

/-- If a signature can be read after blanks were put into it, they cut no word of it. -/
theorem WellFormed.eq_zero_of_refines (hw : w.WellFormed) (hw' : w'.WellFormed)
    (hcomma : ∀ a ∈ w.arguments, ',' ∉ a.type) (hsolid : removeBlanks w'.text = removeBlanks w.text)
    (h : Refines n (cellWords w.text) (cellWords w'.text)) : n = 0 := by
  have hcells := h.cells
  rw [hw.cellWords_text, hw'.cellWords_text,
    (cellWords_ending hw.strip_ending (hw.removeBlanks_ending hw' hsolid)).1] at hcells
  obtain ⟨-, hrest⟩ := List.forall₂_cons.mp hcells
  have hlength : (commaWords w.list).length = (commaWords w'.list).length := by
    simpa using hrest.length_eq
  have hpieces := List.forall₂_take_append _ _ _ hrest
  rw [← hlength, List.take_left] at hpieces
  have hdropped := forall₂_dropEmptyLast (fun _ _ => IsFiner.eq_nil_iff) hpieces
  rw [hw.dropEmptyLast_commaWords hcomma] at hdropped
  -- no piece of the second list has fewer words than an argument
  have hlong : ∀ ws ∈ dropEmptyLast (commaWords w'.list), 2 ≤ ws.length := by
    refine forall_mem_of_forall₂ hdropped ?_
    intro ws ws' hws hfiner
    obtain ⟨a, -, rfl⟩ := List.mem_map.mp hws
    exact hfiner.1
  rw [← map_words_commaPieces_strip, List.forall_mem_map] at hlong
  have hcomma' := hw'.lists.comma_notMem_type hlong
  rw [hw'.dropEmptyLast_commaWords hcomma'] at hdropped
  have harguments : w.arguments.length = w'.arguments.length := by
    simpa using hdropped.length_eq
  have htotal := h.total
  rw [hw.flatten_cellWords hcomma, hw'.flatten_cellWords hcomma'] at htotal
  simpa [List.length_flatMap, harguments] using htotal

end WrittenSignature

/-! ## Modifiers -/

/-- Where a modifier is made or broken the marks of the two texts are not those of the joined
text. -/
theorem keepsModifiers_of_marks (hout : ¬ InTypeParameters u v)
    (h : marks (bare (u ++ v)) = marks (bare u) + marks (bare v)) : KeepsModifiers u v := by
  rw [bare, removeTypeParameters_append_of_not_in hout] at h
  rw [KeepsModifiers, bare, removeTypeParameters_append_of_not_in hout]
  exact blankModifiers_append (fun _ => isMark_of_insideIdentifier) (by decide) h

/-! ## Tokens -/

/-- The signature is read, and has the parts that are given. -/
def HasParts (signature : String) (parts : Tokens) : Prop :=
  ∃ tokens, tokenize signature = .ok tokens ∧ tokens.resultType = parts.resultType ∧
    tokens.name = parts.name ∧ tokens.arguments = parts.arguments

theorem HasParts.marks_bare {s : String} {parts : Tokens} (h : HasParts s parts) :
    marks (bare s.toList) = marksOf parts := by
  obtain ⟨tokens, hok, hresult, hname, harguments⟩ := h
  have hclean := marks_clean hok
  rw [clean_eq, marks_congr (removeBlanks_collapse _)] at hclean
  rw [hclean, marksOf, marksOf, hresult, hname, harguments]

/-- Blanks in type parameters and at edges change none of the parts that are read. A blank anywhere
else makes the signature malformed, unless it makes or breaks a modifier; then it changes the parts
if it does not make the signature malformed. -/
theorem tokenize_spaced {s t : String} {tokens : Tokens} {cuts : ℕ}
    (hspaced : Spaced s.toList t.toList cuts) (hok : tokenize s = .ok tokens)
    (hcomma : ∀ a ∈ tokens.arguments, ',' ∉ a.1.toList) :
    (cuts = 0 → HasParts t tokens) ∧
    (cuts ≠ 0 → ∃ flaw, tokenize t = .error ⟨t, flaw⟩) ∧
    ∀ u v b, cuts = 0 → t.toList = u ++ v → isBlank b = true → ¬ InTypeParameters u v →
      ¬ KeepsModifiers u v → ¬ HasParts (String.ofList (u ++ b :: v)) tokens := by
  obtain ⟨w, hw, htext, rfl⟩ := tokenize_eq_ok_iff.mp hok
  have hcomma : ∀ a ∈ w.arguments, ',' ∉ a.type := by
    intro a ha
    have := hcomma a.token (List.mem_map_of_mem ha)
    simpa [TypedName.token] using this
  have hsolid : removeBlanks (clean t.toList) = removeBlanks w.text := by
    rw [htext, clean_eq, clean_eq, removeBlanks_collapse, removeBlanks_collapse,
      hspaced.removeBlanks_bare]
  have hrefines : Refines cuts (cellWords w.text) (cellWords (clean t.toList)) := by
    rw [htext, clean_eq, clean_eq, cellWords_collapse, cellWords_collapse]
    exact hspaced.refines
  have hparts : cuts = 0 → HasParts t w.tokens := by
    intro hcuts
    obtain ⟨w', hw', htext', htype, hname, harguments⟩ :=
      hw.exists_of_cellWords hcomma hsolid (hrefines.eq_of_eq_zero hcuts)
    refine ⟨w'.tokens, tokenize_eq_ok_iff.mpr ⟨w', hw', htext', rfl⟩, ?_, ?_, harguments⟩
    · exact congrArg String.ofList htype
    · exact congrArg String.ofList hname
  refine ⟨hparts, ?_, ?_⟩
  · intro hcuts
    cases htokenize : tokenize t with
    | error malformed =>
        refine ⟨malformed.flaw, ?_⟩
        rw [← signature_of_tokenize_eq_error htokenize]
    | ok tokens' =>
        obtain ⟨w', hw', htext', -⟩ := tokenize_eq_ok_iff.mp htokenize
        rw [← htext'] at hsolid hrefines
        exact absurd (hw.eq_zero_of_refines hw' hcomma hsolid hrefines) hcuts
  · intro u v b hcuts ht hb hout hkeeps hinserted
    have hmarks := (hparts hcuts).marks_bare
    rw [ht, ← hinserted.marks_bare, String.toList_ofList, bare_insert_of_not_in hout hb,
      marks_append, marks_cons_of_isMark_eq_false (isMark_eq_false_of_isBlank hb)] at hmarks
    exact hkeeps (keepsModifiers_of_marks hout hmarks)

/-- A blank in front of the list and one in type parameters change nothing, and a further one in
front of the brackets of an array makes the signature malformed. -/
theorem tokenize_spaced_array :
    let parts : Tokens := ⟨"int[] f(Map m)", "int[]", "f", [("Map", "m")]⟩
    tokenize "int[] f(Map<K,V> m)" = .ok parts ∧
      Spaced "int[] f(Map<K,V> m)".toList "int[] f (Map< K,V> m)".toList 0 ∧
      HasParts "int[] f (Map< K,V> m)" parts ∧
      Spaced "int[] f(Map<K,V> m)".toList "int [] f (Map< K,V> m)".toList 1 ∧
      ∃ flaw, tokenize "int [] f (Map< K,V> m)" = .error ⟨"int [] f (Map< K,V> m)", flaw⟩ := by
  intro parts
  have hok : tokenize "int[] f(Map<K,V> m)" = .ok parts := by decide +kernel
  have hcomma : ∀ a ∈ parts.arguments, ',' ∉ a.1.toList := by decide
  have hlist : Spaced "int[] f(Map<K,V> m)".toList ("int[] f (Map<".toList ++ "K,V> m)".toList) 0 :=
    .edge (u := "int[] f".toList) (v := "(Map<K,V> m)".toList) .refl isBlank_space
      (by decide +kernel) (by decide +kernel) (by decide +kernel)
  have hgeneric : Spaced "int[] f(Map<K,V> m)".toList
      ("int".toList ++ "[] f (Map< K,V> m)".toList) 0 :=
    .hidden (u := "int[] f (Map<".toList) (v := "K,V> m)".toList) hlist isBlank_space
      (by decide +kernel)
  have hcut : Spaced "int[] f(Map<K,V> m)".toList "int [] f (Map< K,V> m)".toList 1 :=
    .cut (u := "int".toList) (v := "[] f (Map< K,V> m)".toList) hgeneric isBlank_space
      (by decide +kernel) (by decide +kernel) (by decide +kernel)
  exact ⟨hok, hgeneric, (tokenize_spaced hgeneric hok hcomma).1 rfl, hcut,
    (tokenize_spaced hcut hok hcomma).2.1 Nat.one_ne_zero⟩

/-- A blank in front of the brackets of an array makes a signature malformed, and one behind type
parameters may change its result type. -/
theorem tokenize_blank_beside_punctuation :
    tokenize "void f(int[] a)" = .ok ⟨"void f(int[] a)", "void", "f", [("int[]", "a")]⟩ ∧
      tokenize "void f(int [] a)" =
        .error ⟨"void f(int [] a)", some (.argumentText "int [] a")⟩ ∧
      tokenize "static<T>int f()" = .ok ⟨"staticint f()", "staticint", "f", []⟩ ∧
      tokenize "static<T> int f()" = .ok ⟨"int f()", "int", "f", []⟩ := by
  decide +kernel

end MethodSig.Signature
