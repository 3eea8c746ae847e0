import MethodSig.Proofs.Signature.Modifier
import MethodSig.Proofs.Text.Blank
import MethodSig.Signature.Argument

/-!
# Argument lists as they are written

An argument is written as a run of characters that are not blank and an identifier, with blanks
between them and perhaps around them. A list is written as arguments of which each ends in a
comma, save that the last one may end with the list. Reading a list gives the types and names of
the arguments that are written there, and no list is written in two ways.
-/

namespace MethodSig.Signature

open Text

/-- A type and a name with the blanks in front of them, between them and behind them. -/
structure TypedName where
  before : List Char
  type : List Char
  gap : List Char
  name : List Char
  behind : List Char

namespace TypedName

def text (a : TypedName) : List Char :=
  a.before ++ (a.type ++ (a.gap ++ (a.name ++ a.behind)))

/-- The parts that are kept when an argument is read. -/
def token (a : TypedName) : String × String :=
  (String.ofList a.type, String.ofList a.name)

/-- The parts are what they are called. -/
structure WellFormed (a : TypedName) : Prop where
  before_blank : ∀ c ∈ a.before, isBlank c = true
  type_ne_nil : a.type ≠ []
  type_solid : ∀ c ∈ a.type, isBlank c = false
  gap_ne_nil : a.gap ≠ []
  gap_blank : ∀ c ∈ a.gap, isBlank c = true
  name_isIdentifier : isIdentifier a.name = true
  behind_blank : ∀ c ∈ a.behind, isBlank c = true

end TypedName

/-- A text is a list of arguments that are written one behind the other. -/
inductive Lists : List Char → List TypedName → Prop
  | nil : Lists [] []
  | last {a : TypedName} (ha : a.WellFormed) : Lists a.text [a]
  | comma {a : TypedName} {s : List Char} {rest : List TypedName} (ha : a.WellFormed)
      (hs : Lists s rest) : Lists (a.text ++ ',' :: s) (a :: rest)

/-! ## Characters -/

theorem isBlank_eq_false_of_insideName {c : Char} (h : insideName c = true) :
    isBlank c = false := by
  rw [insideName, Bool.and_eq_true, Bool.not_eq_true'] at h
  exact h.1

theorem insideName_of_insideIdentifier {c : Char} (h : insideIdentifier c = true) :
    insideName c = true := by
  have hcomma : c ≠ ',' := by
    rintro rfl
    revert h
    decide
  simp [insideName, isBlank_eq_false_of_insideIdentifier h, hcomma]

theorem takeWhile_isBlank_ne_nil {s : List Char} (h : s.dropWhile (!isBlank ·) ≠ []) :
    (s.dropWhile (!isBlank ·)).takeWhile isBlank ≠ [] := by
  have hhead := List.head?_dropWhile_not (!isBlank ·) s
  obtain ⟨c, rest, hcons⟩ := List.exists_cons_of_ne_nil h
  rw [hcons, List.head?_cons] at hhead
  have hc : isBlank c = true := by simpa using hhead
  rw [hcons, List.takeWhile_cons_of_pos hc]
  simp

/-! ## One argument -/

namespace TypedName

theorem WellFormed.text_ne_nil {a : TypedName} (ha : a.WellFormed) : a.text ≠ [] := by
  simp [text, ha.type_ne_nil]

/-- The argument that a text begins with, if it begins with one. -/
def ofText (s : List Char) : TypedName :=
  let text := s.dropWhile isBlank
  let gap := text.dropWhile (!isBlank ·)
  let named := gap.dropWhile isBlank
  ⟨s.takeWhile isBlank, text.takeWhile (!isBlank ·), gap.takeWhile isBlank,
    named.takeWhile insideName, (named.dropWhile insideName).takeWhile isBlank⟩

/-- What follows the argument that a text begins with. -/
def remainder (s : List Char) : List Char :=
  ((((s.dropWhile isBlank).dropWhile (!isBlank ·)).dropWhile isBlank).dropWhile
    insideName).dropWhile isBlank

theorem text_ofText_append_remainder (s : List Char) : (ofText s).text ++ remainder s = s := by
  simp only [ofText, remainder, text, List.append_assoc, List.takeWhile_append_dropWhile]

/-- The argument that a text begins with is found, with all its blanks, if the text ends behind it
or goes on with a comma. -/
theorem ofText_text_append {a : TypedName} (ha : a.WellFormed) (tail : List Char)
    (htail : ∀ c ∈ tail.head?, c = ',') :
    ofText (a.text ++ tail) = a ∧ remainder (a.text ++ tail) = tail := by
  have hname_ne : a.name ≠ [] := ne_nil_of_isIdentifier ha.name_isIdentifier
  have hinside : ∀ c ∈ a.name, insideName c = true := fun c hc =>
    insideName_of_insideIdentifier (insideIdentifier_of_mem ha.name_isIdentifier c hc)
  have hword : ∀ c ∈ a.type, (!isBlank c) = true := fun c hc => by simp [ha.type_solid c hc]
  have htype : ∀ c ∈ (a.type ++ (a.gap ++ (a.name ++ (a.behind ++ tail)))).head?,
      isBlank c = false :=
    forall_mem_head?_append ha.type_ne_nil ha.type_solid
  have hgap : ∀ c ∈ (a.gap ++ (a.name ++ (a.behind ++ tail))).head?, (!isBlank c) = false :=
    forall_mem_head?_append ha.gap_ne_nil fun c hc => by simp [ha.gap_blank c hc]
  have hname : ∀ c ∈ (a.name ++ (a.behind ++ tail)).head?, isBlank c = false :=
    forall_mem_head?_append hname_ne fun c hc => isBlank_eq_false_of_insideName (hinside c hc)
  have hcomma : ∀ c ∈ tail.head?, isBlank c = false := fun c hc => by
    rw [htail c hc]
    decide
  have hbehind : ∀ c ∈ (a.behind ++ tail).head?, insideName c = false := by
    by_cases hb : a.behind = []
    · rw [hb, List.nil_append]
      intro c hc
      rw [htail c hc]
      decide
    · exact forall_mem_head?_append hb fun c hc => by simp [insideName, ha.behind_blank c hc]
  have htext : a.text ++ tail =
      a.before ++ (a.type ++ (a.gap ++ (a.name ++ (a.behind ++ tail)))) := by
    simp [text]
  rw [htext]
  simp only [ofText, remainder,
    takeWhile_append_of_head ha.before_blank htype, dropWhile_append_of_head ha.before_blank htype,
    takeWhile_append_of_head hword hgap, dropWhile_append_of_head hword hgap,
    takeWhile_append_of_head ha.gap_blank hname, dropWhile_append_of_head ha.gap_blank hname,
    takeWhile_append_of_head hinside hbehind, dropWhile_append_of_head hinside hbehind,
    takeWhile_append_of_head ha.behind_blank hcomma,
    dropWhile_append_of_head ha.behind_blank hcomma, and_self]

theorem ofText_text {a : TypedName} (ha : a.WellFormed) :
    ofText a.text = a ∧ remainder a.text = [] := by
  simpa using ofText_text_append ha [] (by simp)

theorem afterComma?_eq_some_iff {s rest : List Char} :
    afterComma? s = some rest ↔
      s.dropWhile isBlank = [] ∧ rest = [] ∨ s.dropWhile isBlank = ',' :: rest := by
  unfold afterComma?
  split
  next h => simp [h, eq_comm]
  next r h => simp [h]
  next hnil hcomma =>
    simp only [reduceCtorEq, false_iff, not_or]
    exact ⟨fun h => hnil h.1, hcomma rest⟩

/-- Cutting off an argument gives its type, its name and what follows its comma. -/
theorem cutArgument?_text_append {a : TypedName} (ha : a.WellFormed) {tail rest : List Char}
    (htail : tail = [] ∧ rest = [] ∨ tail = ',' :: rest) :
    cutArgument? (a.text ++ tail) = some ((a.type, a.name), rest) := by
  have hhead : ∀ c ∈ tail.head?, c = ',' := by
    rcases htail with ⟨rfl, -⟩ | rfl
    · simp
    · simp
  obtain ⟨hfound, hleft⟩ := ofText_text_append ha tail hhead
  have htype : ((a.text ++ tail).dropWhile isBlank).takeWhile (!isBlank ·) = a.type :=
    congrArg TypedName.type hfound
  have hgap : ((a.text ++ tail).dropWhile isBlank).dropWhile (!isBlank ·) ≠ [] := by
    intro h
    have hgap := congrArg TypedName.gap hfound
    simp only [ofText, h, List.takeWhile_nil] at hgap
    exact ha.gap_ne_nil hgap.symm
  have hname : ((((a.text ++ tail).dropWhile isBlank).dropWhile (!isBlank ·)).dropWhile
      isBlank).takeWhile insideName = a.name :=
    congrArg TypedName.name hfound
  have hcomma : afterComma? (((((a.text ++ tail).dropWhile isBlank).dropWhile
      (!isBlank ·)).dropWhile isBlank).dropWhile insideName) = some rest := by
    rw [afterComma?_eq_some_iff]
    change remainder _ = [] ∧ rest = [] ∨ remainder _ = ',' :: rest
    rw [hleft]
    exact htail
  have hname_ne := ne_nil_of_isIdentifier ha.name_isIdentifier
  simp only [cutArgument?, htype, hname, hcomma, List.isEmpty_eq_false_iff.mpr ha.type_ne_nil,
    List.isEmpty_eq_false_iff.mpr hgap, List.isEmpty_eq_false_iff.mpr hname_ne]
  rfl

/-- What is cut off a text is an argument, if its name is an identifier. -/
theorem exists_text_of_cutArgument? {s type name rest : List Char}
    (hcut : cutArgument? s = some ((type, name), rest)) (hname : isIdentifier name = true) :
    ∃ a : TypedName, a.WellFormed ∧ a.type = type ∧ a.name = name ∧
      (s = a.text ∧ rest = [] ∨ s = a.text ++ ',' :: rest) := by
  simp only [cutArgument?] at hcut
  split at hcut
  next => simp at hcut
  next hne =>
    simp only [Bool.or_eq_true, List.isEmpty_iff, not_or] at hne
    simp only [Option.map_eq_some_iff, Prod.mk.injEq] at hcut
    obtain ⟨left, hleft, ⟨rfl, rfl⟩, rfl⟩ := hcut
    have ha : (ofText s).WellFormed := by
      refine ⟨?_, hne.1.1, ?_, takeWhile_isBlank_ne_nil hne.1.2, ?_, hname, ?_⟩
      · exact fun c hc => List.mem_takeWhile_imp hc
      · exact fun c hc => by simpa using List.mem_takeWhile_imp hc
      · exact fun c hc => List.mem_takeWhile_imp hc
      · exact fun c hc => List.mem_takeWhile_imp hc
    have hs := text_ofText_append_remainder s
    refine ⟨ofText s, ha, rfl, rfl, ?_⟩
    rcases afterComma?_eq_some_iff.mp hleft with ⟨hend, rfl⟩ | hcomma
    · have hend : remainder s = [] := hend
      rw [hend, List.append_nil] at hs
      exact Or.inl ⟨hs.symm, rfl⟩
    · have hcomma : remainder s = ',' :: left := hcomma
      rw [hcomma] at hs
      exact Or.inr hs.symm

/-! ### Two words -/

theorem words_text {a : TypedName} (ha : a.WellFormed) : words a.text = [a.type, a.name] := by
  have hname_ne := ne_nil_of_isIdentifier ha.name_isIdentifier
  have hname : ∀ c ∈ a.name, isBlank c = false := fun c hc =>
    isBlank_eq_false_of_insideName
      (insideName_of_insideIdentifier (insideIdentifier_of_mem ha.name_isIdentifier c hc))
  have hgap : ∀ c ∈ (a.gap ++ (a.name ++ a.behind)).head?, isBlank c = true :=
    forall_mem_head?_append ha.gap_ne_nil ha.gap_blank
  have hbehind : ∀ c ∈ a.behind.head?, isBlank c = true := fun c hc =>
    ha.behind_blank c (List.mem_of_mem_head? hc)
  rw [text, words_append_word ha.before_blank ha.type_ne_nil ha.type_solid hgap,
    words_append_word ha.gap_blank hname_ne hname hbehind,
    words_eq_nil_iff.mpr ha.behind_blank]

/-- A text of two words of which the second is an identifier is written in this way. -/
theorem exists_text_of_words {s type name : List Char} (h : words s = [type, name])
    (hname : isIdentifier name = true) :
    ∃ a : TypedName, a.WellFormed ∧ a.text = s ∧ a.type = type ∧ a.name = name := by
  obtain ⟨before, rest, rfl, hbefore, htype_ne, htype, hrest, hwords⟩ :=
    exists_append_of_words_eq_cons h
  obtain ⟨gap, behind, rfl, hgap, -, -, -, hnil⟩ := exists_append_of_words_eq_cons hwords
  have hgap_ne : gap ≠ [] := by
    rintro rfl
    obtain ⟨c, rest, rfl⟩ := List.exists_cons_of_ne_nil (ne_nil_of_isIdentifier hname)
    have hblank := hrest c (by simp)
    have hsolid := isBlank_eq_false_of_insideIdentifier
      (insideIdentifier_of_mem hname c List.mem_cons_self)
    exact Bool.false_ne_true (hsolid.symm.trans hblank)
  exact ⟨⟨before, type, gap, name, behind⟩, ⟨hbefore, htype_ne, htype, hgap_ne, hgap, hname,
    words_eq_nil_iff.mp hnil⟩, rfl, rfl, rfl⟩

end TypedName

/-! ## Whole lists -/

namespace Lists

variable {s : List Char} {arguments : List TypedName}

theorem wellFormed_of_mem (h : Lists s arguments) {a : TypedName} (ha : a ∈ arguments) :
    a.WellFormed := by
  induction h with
  | nil => contradiction
  | last hlast => exact List.mem_singleton.mp ha ▸ hlast
  | comma hfirst _ ih =>
      rcases List.mem_cons.mp ha with rfl | hrest
      · exact hfirst
      · exact ih hrest

theorem eq_nil_iff (h : Lists s arguments) : s = [] ↔ arguments = [] := by
  cases h with
  | nil => simp
  | last ha => simp [ha.text_ne_nil]
  | comma ha hs => simp

/-- A list that is not empty begins with the argument that its text begins with. -/
theorem eq_cons (h : Lists s arguments) (hne : s ≠ []) :
    TypedName.remainder s = [] ∧ arguments = [TypedName.ofText s] ∨
      ∃ t rest, TypedName.remainder s = ',' :: t ∧ Lists t rest ∧
        arguments = TypedName.ofText s :: rest := by
  cases h with
  | nil => contradiction
  | @last a ha =>
      obtain ⟨hfound, hleft⟩ := TypedName.ofText_text ha
      exact Or.inl ⟨hleft, by rw [hfound]⟩
  | @comma a t rest ha hs =>
      obtain ⟨hfound, hleft⟩ := TypedName.ofText_text_append ha (',' :: t) (by simp)
      exact Or.inr ⟨t, rest, hleft, hs, by rw [hfound]⟩

end Lists

theorem readArguments_nil : readArguments [] = .ok [] := by
  rw [readArguments]
  rfl

theorem readArguments_of_cutArgument? {s type name rest : List Char}
    {read : List (String × String)} (hcut : cutArgument? s = some ((type, name), rest))
    (hname : isIdentifier name = true) (hrest : readArguments rest = .ok read) :
    readArguments s = .ok ((String.ofList type, String.ofList name) :: read) := by
  have hne : s.isEmpty = false := by
    rw [List.isEmpty_eq_false_iff]
    rintro rfl
    contradiction
  rw [readArguments, hne]
  simp only [Bool.false_eq_true, if_false]
  split
  next h => simp [hcut] at h
  next type' name' rest' h =>
    rw [hcut, Option.some.injEq, Prod.mk.injEq, Prod.mk.injEq] at h
    obtain ⟨⟨rfl, rfl⟩, rfl⟩ := h
    rw [if_pos hname, hrest]
    rfl

/-- The arguments that are read are those that are written. -/
theorem readArguments_eq_ok_iff {s : List Char} {pairs : List (String × String)} :
    readArguments s = .ok pairs ↔
      ∃ arguments, Lists s arguments ∧ arguments.map TypedName.token = pairs := by
  constructor
  · intro h
    fun_induction readArguments s generalizing pairs with
    | case1 s hempty =>
        rw [List.isEmpty_iff] at hempty
        rw [Except.ok.injEq] at h
        subst hempty h
        exact ⟨[], .nil, rfl⟩
    | case2 s hne hcut => simp at h
    | case3 s hne type name rest hcut _ hname ih =>
        cases hread : readArguments rest with
        | error flaw => simp [hread, Except.map] at h
        | ok read =>
            simp only [hread, Except.map, Except.ok.injEq] at h
            obtain ⟨arguments, hlists, rfl⟩ := ih hread
            obtain ⟨a, ha, rfl, rfl, hs⟩ := TypedName.exists_text_of_cutArgument? hcut hname
            refine ⟨a :: arguments, ?_, h⟩
            rcases hs with ⟨rfl, rfl⟩ | rfl
            · rw [hlists.eq_nil_iff.mp rfl]
              exact .last ha
            · exact .comma ha hlists
    | case4 s hne type name rest hcut _ hname => simp at h
  · rintro ⟨arguments, hlists, rfl⟩
    induction hlists with
    | nil => exact readArguments_nil
    | @last a ha =>
        have hcut := TypedName.cutArgument?_text_append ha (Or.inl ⟨rfl, rfl⟩)
        rw [List.append_nil] at hcut
        exact readArguments_of_cutArgument? hcut ha.name_isIdentifier readArguments_nil
    | @comma a s rest ha _ ih =>
        have hcut := TypedName.cutArgument?_text_append ha (Or.inr (Eq.refl (',' :: s)))
        exact readArguments_of_cutArgument? hcut ha.name_isIdentifier ih

theorem tokenizeArguments_eq_ok_iff {text signature : String} {pairs : List (String × String)} :
    tokenizeArguments text signature = .ok pairs ↔
      ∃ arguments, Lists (strip text.toList) arguments ∧
        arguments.map TypedName.token = pairs := by
  rw [← readArguments_eq_ok_iff, tokenizeArguments]
  cases readArguments (strip text.toList) with
  | ok read => simp [Except.mapError]
  | error flaw => simp [Except.mapError]

/-- A list is written in one way only. -/
theorem Lists.unique {s : List Char} {arguments others : List TypedName}
    (h : Lists s arguments) (h' : Lists s others) : arguments = others := by
  induction h generalizing others with
  | nil => exact (h'.eq_nil_iff.mp rfl).symm
  | @last a ha =>
      obtain ⟨hfound, hleft⟩ := TypedName.ofText_text ha
      rcases h'.eq_cons ha.text_ne_nil with ⟨-, rfl⟩ | ⟨t, rest, ht, -⟩
      · rw [hfound]
      · rw [hleft] at ht
        contradiction
  | @comma a s rest ha _ ih =>
      obtain ⟨hfound, hleft⟩ := TypedName.ofText_text_append ha (',' :: s) (by simp)
      rcases h'.eq_cons (by simp) with ⟨ht, -⟩ | ⟨t, rest, ht, hrest, rfl⟩
      · rw [hleft] at ht
        contradiction
      · rw [hleft, List.cons.injEq] at ht
        rw [hfound, ih (ht.2 ▸ hrest)]

end MethodSig.Signature
