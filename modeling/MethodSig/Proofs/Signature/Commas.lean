import Mathlib.Data.List.Forall2
import MethodSig.Proofs.Signature.Written
import MethodSig.Proofs.Text.Spacing

/-!
# Commas in argument lists

A comma that follows a name ends an argument. One that stands in a run of characters without
blanks belongs to the type text that the run is read as, whatever stands around it there. Apart
from such texts, the arguments of a list are its pieces between the commas, and each piece is two
words.
-/

namespace MethodSig.Signature

open Text

/-- The pieces of a list between its commas, without the empty piece behind a last comma. -/
def commaPieces (s : List Char) : List (List Char) :=
  let pieces := s.splitOn ','
  if pieces.getLast? = some [] then pieces.dropLast else pieces

/-! ## Pieces -/

theorem commaPieces_of_notMem {s : List Char} (hne : s ≠ []) (h : ',' ∉ s) :
    commaPieces s = [s] := by
  simp [commaPieces, splitOn_eq_singleton h, hne]

theorem commaPieces_append_cons {s : List Char} (h : ',' ∉ s) (t : List Char) :
    commaPieces (s ++ ',' :: t) = s :: commaPieces t := by
  have hsplit : (s ++ ',' :: t).splitOn ',' = s :: t.splitOn ',' := by
    have hcut : (s ++ ',' :: t).splitOn ',' = s.splitOn ',' ++ t.splitOn ',' :=
      List.splitOnP_append_cons s t (beq_self_eq_true ',')
    rw [hcut, splitOn_eq_singleton h, List.singleton_append]
  obtain ⟨piece, pieces, hcons⟩ := List.exists_cons_of_ne_nil (List.splitOn_ne_nil ',' t)
  simp only [commaPieces, hsplit, hcons, List.getLast?_cons_cons, List.dropLast_cons_cons]
  split
  · rfl
  · rfl

theorem eq_nil_of_commaPieces_eq_nil {s : List Char} (h : commaPieces s = []) : s = [] := by
  by_contra hne
  by_cases hcomma : ',' ∈ s
  · obtain ⟨u, v, rfl, hu⟩ := List.eq_append_cons_of_mem hcomma
    rw [commaPieces_append_cons hu] at h
    contradiction
  · rw [commaPieces_of_notMem hne hcomma] at h
    contradiction

/-- The first piece ends with the text or in front of the first comma. -/
theorem exists_append_of_commaPieces_eq_cons {s piece : List Char} {pieces : List (List Char)}
    (h : commaPieces s = piece :: pieces) :
    ',' ∉ piece ∧
      (s = piece ∧ pieces = [] ∨ ∃ t, s = piece ++ ',' :: t ∧ commaPieces t = pieces) := by
  by_cases hcomma : ',' ∈ s
  · obtain ⟨u, v, rfl, hu⟩ := List.eq_append_cons_of_mem hcomma
    rw [commaPieces_append_cons hu, List.cons.injEq] at h
    obtain ⟨rfl, rfl⟩ := h
    exact ⟨hu, Or.inr ⟨v, rfl, rfl⟩⟩
  · have hne : s ≠ [] := by
      rintro rfl
      contradiction
    rw [commaPieces_of_notMem hne hcomma, List.cons.injEq] at h
    obtain ⟨rfl, rfl⟩ := h
    exact ⟨hcomma, Or.inl ⟨rfl, rfl⟩⟩

section Words

variable {s u : List Char} {b : Char}

/-! ## Words of pieces -/

/-- The words of the pieces of a list between its commas. -/
def commaWords (list : List Char) : List (List (List Char)) :=
  (list.splitOn ',').map words

/-- Texts may be compared piece by piece. -/
theorem comma_induction {P : List Char → Prop} (hlast : ∀ s, ',' ∉ s → P s)
    (hcomma : ∀ u v, ',' ∉ u → P v → P (u ++ ',' :: v)) (s : List Char) : P s := by
  induction hlength : s.length using Nat.strong_induction_on generalizing s with
  | h length ih =>
      by_cases hmem : ',' ∈ s
      · obtain ⟨u, v, rfl, hu⟩ := List.eq_append_cons_of_mem hmem
        rw [List.length_append, List.length_cons] at hlength
        exact hcomma u v hu (ih v.length (by omega) v rfl)
      · exact hlast s hmem

theorem commaWords_of_notMem (h : ',' ∉ s) : commaWords s = [words s] := by
  rw [commaWords, splitOn_eq_singleton h, List.map_singleton]

theorem commaWords_append_cons (h : ',' ∉ u) (v : List Char) :
    commaWords (u ++ ',' :: v) = words u :: commaWords v := by
  have hcut : (u ++ ',' :: v).splitOn ',' = u.splitOn ',' ++ v.splitOn ',' :=
    List.splitOnP_append_cons u v (beq_self_eq_true ',')
  rw [commaWords, hcut, splitOn_eq_singleton h, List.singleton_append, List.map_cons]
  rfl

theorem commaWords_ne_nil (s : List Char) : commaWords s ≠ [] :=
  mt List.map_eq_nil_iff.mp (List.splitOn_ne_nil ',' s)

theorem ne_comma_of_isBlank (hb : isBlank b = true) : ',' ≠ b := by
  rintro rfl
  contradiction

theorem commaWords_strip (s : List Char) : commaWords (strip s) = commaWords s := by
  apply strip_induction
  · intro b s hb
    have hne := ne_comma_of_isBlank hb
    induction s using comma_induction with
    | hlast s hs =>
        rw [commaWords_of_notMem (by simp [hne, hs]), commaWords_of_notMem hs,
          words_cons_of_isBlank hb]
    | hcomma u v hu _ =>
        rw [← List.cons_append, commaWords_append_cons (by simp [hne, hu]),
          commaWords_append_cons hu, words_cons_of_isBlank hb]
  · intro b s hb
    have hne := ne_comma_of_isBlank hb
    induction s using comma_induction with
    | hlast s hs =>
        rw [commaWords_of_notMem (by simp [hne, hs]), commaWords_of_notMem hs,
          words_concat_of_isBlank hb]
    | hcomma u v hu ih =>
        rw [List.append_assoc, List.cons_append, commaWords_append_cons hu,
          commaWords_append_cons hu, ih]

/-- The list without its last entry, if that is empty. -/
def dropEmptyLast {α : Type} : List (List α) → List (List α)
  | [] => []
  | [[]] => []
  | x :: rest => x :: dropEmptyLast rest

theorem dropEmptyLast_cons {α : Type} (x : List α) {rest : List (List α)} (h : rest ≠ []) :
    dropEmptyLast (x :: rest) = x :: dropEmptyLast rest := by
  obtain ⟨y, rest, rfl⟩ := List.exists_cons_of_ne_nil h
  cases x with
  | nil => rfl
  | cons a x => rfl

theorem dropEmptyLast_singleton {α : Type} {x : List α} (h : x ≠ []) :
    dropEmptyLast [x] = [x] := by
  obtain ⟨a, x, rfl⟩ := List.exists_cons_of_ne_nil h
  rfl

theorem forall₂_dropEmptyLast {α : Type} {R : List α → List α → Prop} {L L' : List (List α)}
    (hempty : ∀ x x', R x x' → (x = [] ↔ x' = [])) (h : List.Forall₂ R L L') :
    List.Forall₂ R (dropEmptyLast L) (dropEmptyLast L') := by
  induction h with
  | nil => exact .nil
  | @cons x x' _ _ hx htail ih =>
      cases htail with
      | nil =>
          by_cases hnil : x = []
          · rw [hnil, (hempty x x' hx).mp hnil]
            exact .nil
          · rw [dropEmptyLast_singleton hnil, dropEmptyLast_singleton (mt (hempty x x' hx).mpr hnil)]
            exact .cons hx .nil
      | cons hy hrest =>
          rw [dropEmptyLast_cons _ (List.cons_ne_nil _ _), dropEmptyLast_cons _ (List.cons_ne_nil _ _)]
          exact .cons hx ih

theorem flatten_dropEmptyLast {α : Type} (L : List (List α)) :
    (dropEmptyLast L).flatten = L.flatten := by
  fun_induction dropEmptyLast L with
  | case1 => rfl
  | case2 => rfl
  | case3 x rest _ ih => rw [List.flatten_cons, ih, List.flatten_cons]

/-- In a text without a blank at the end the last piece is empty only if it has no words. -/
theorem map_words_commaPieces (h : ∀ c ∈ s.getLast?, isBlank c = false) :
    (commaPieces s).map words = dropEmptyLast (commaWords s) := by
  induction s using comma_induction with
  | hlast s hs =>
      rw [commaWords_of_notMem hs]
      by_cases hne : s = []
      · subst hne
        rw [words_nil]
        rfl
      · have hwords : words s ≠ [] := by
          rw [Ne, words_eq_nil_iff]
          intro hall
          have hlast := h _ (List.getLast_mem_getLast? hne)
          rw [hall _ (List.getLast_mem hne)] at hlast
          contradiction
        rw [commaPieces_of_notMem hne hs, dropEmptyLast_singleton hwords, List.map_singleton]
  | hcomma u v hu ih =>
      have hv : ∀ c ∈ v.getLast?, isBlank c = false := by
        intro c hc
        refine h c ?_
        rw [List.getLast?_append, List.getLast?_cons, hc]
        rfl
      rw [commaPieces_append_cons hu, commaWords_append_cons hu,
        dropEmptyLast_cons _ (commaWords_ne_nil v), List.map_cons, ih hv]

theorem map_words_commaPieces_strip (s : List Char) :
    (commaPieces (strip s)).map words = dropEmptyLast (commaWords s) := by
  rw [map_words_commaPieces, commaWords_strip]
  intro c hc
  have hhead := List.head?_dropWhile_not isBlank (s.dropWhile isBlank).reverse
  rw [strip, List.getLast?_reverse] at hc
  rw [Option.mem_def] at hc
  simpa [hc] using hhead

end Words

/-! ## Arguments -/

theorem TypedName.comma_notMem_text {a : TypedName} (ha : a.WellFormed) (h : ',' ∉ a.type) :
    ',' ∉ a.text := by
  have hblanks (blanks : List Char) (hblanks : ∀ c ∈ blanks, isBlank c = true) :
      ',' ∉ blanks := by
    intro hmem
    have := hblanks ',' hmem
    contradiction
  have hname : ',' ∉ a.name := by
    intro hmem
    have := insideIdentifier_of_mem ha.name_isIdentifier ',' hmem
    contradiction
  simp only [text, List.mem_append, not_or]
  exact ⟨hblanks _ ha.before_blank, h, hblanks _ ha.gap_blank, hname,
    hblanks _ ha.behind_blank⟩

/-- The pieces of a list whose types hold no comma are its arguments. -/
theorem Lists.map_words_commaPieces {s : List Char} {arguments : List TypedName}
    (h : Lists s arguments) (hcomma : ∀ a ∈ arguments, ',' ∉ a.type) :
    (commaPieces s).map words = arguments.map fun a => [a.type, a.name] := by
  induction h with
  | nil => rfl
  | @last a ha =>
      have hnotMem := TypedName.comma_notMem_text ha (hcomma a List.mem_cons_self)
      rw [commaPieces_of_notMem ha.text_ne_nil hnotMem, List.map_singleton, List.map_singleton,
        TypedName.words_text ha]
  | @comma a s rest ha _ ih =>
      obtain ⟨hfirst, hrest⟩ := List.forall_mem_cons.mp hcomma
      have hnotMem := TypedName.comma_notMem_text ha hfirst
      rw [commaPieces_append_cons hnotMem, List.map_cons, List.map_cons, ih hrest,
        TypedName.words_text ha]

/-- Pieces of two words each, the second of them an identifier, are the arguments of a list. -/
theorem exists_lists_of_map_words {s : List Char} {pairs : List (List Char × List Char)}
    (h : (commaPieces s).map words = pairs.map fun pair => [pair.1, pair.2])
    (hname : ∀ pair ∈ pairs, isIdentifier pair.2 = true) :
    ∃ arguments, Lists s arguments ∧ (arguments.map fun a => (a.type, a.name)) = pairs ∧
      ∀ a ∈ arguments, ',' ∉ a.type := by
  induction pairs generalizing s with
  | nil =>
      rw [List.map_nil, List.map_eq_nil_iff] at h
      exact ⟨[], eq_nil_of_commaPieces_eq_nil h ▸ .nil, rfl, by simp⟩
  | cons pair pairs ih =>
      obtain ⟨hfirst, hrest⟩ := List.forall_mem_cons.mp hname
      rw [List.map_cons, List.map_eq_cons_iff] at h
      obtain ⟨piece, pieces, hpieces, hwords, hmap⟩ := h
      obtain ⟨hnotMem, hs⟩ := exists_append_of_commaPieces_eq_cons hpieces
      obtain ⟨a, ha, rfl, htype, hname⟩ := TypedName.exists_text_of_words hwords hfirst
      have hcomma : ',' ∉ a.type := fun hmem => hnotMem (by simp [TypedName.text, hmem])
      have hpair : (a.type, a.name) = pair := by rw [htype, hname]
      rcases hs with ⟨rfl, rfl⟩ | ⟨t, rfl, rfl⟩
      · rw [List.map_nil, eq_comm, List.map_eq_nil_iff] at hmap
        exact ⟨[a], .last ha, by rw [List.map_singleton, hpair, hmap], by simpa using hcomma⟩
      · obtain ⟨arguments, hlists, rfl, hcommas⟩ := ih hmap hrest
        exact ⟨a :: arguments, .comma ha hlists, by rw [List.map_cons, hpair],
          List.forall_mem_cons.mpr ⟨hcomma, hcommas⟩⟩

/-- A comma in the type of an argument ends a piece that is no argument. -/
theorem TypedName.exists_short_piece {a : TypedName} (ha : a.WellFormed) (h : ',' ∈ a.type)
    (tail : List Char) :
    ∃ piece rest, a.text ++ tail = piece ++ ',' :: rest ∧ ',' ∉ piece ∧
      (words piece).length < 2 := by
  obtain ⟨x, y, htype, hx⟩ := List.eq_append_cons_of_mem h
  refine ⟨a.before ++ x, y ++ (a.gap ++ (a.name ++ (a.behind ++ tail))), ?_, ?_, ?_⟩
  · simp [text, htype]
  · rw [List.mem_append, not_or]
    refine ⟨?_, hx⟩
    intro hmem
    exact ne_comma_of_isBlank (ha.before_blank ',' hmem) rfl
  · by_cases hne : x = []
    · rw [hne, List.append_nil, words_eq_nil_iff.mpr ha.before_blank]
      exact Nat.two_pos
    · have hsolid : ∀ c ∈ x, isBlank c = false := fun c hc => ha.type_solid c (by simp [htype, hc])
      have hend : ∀ c ∈ ([] : List Char).head?, isBlank c = true := by simp
      have hwords := words_append_word ha.before_blank hne hsolid hend
      rw [List.append_nil] at hwords
      rw [hwords, words_nil]
      exact Nat.one_lt_two

/-- A list of which each piece has at least two words is read with no comma in a type. -/
theorem Lists.comma_notMem_type {s : List Char} {arguments : List TypedName} (h : Lists s arguments)
    (hlong : ∀ piece ∈ commaPieces s, 2 ≤ (words piece).length) :
    ∀ a ∈ arguments, ',' ∉ a.type := by
  induction h with
  | nil => exact List.forall_mem_nil _
  | @last a ha =>
      refine List.forall_mem_singleton.mpr ?_
      intro hmem
      obtain ⟨piece, rest, htext, hpiece, hshort⟩ := TypedName.exists_short_piece ha hmem []
      rw [List.append_nil] at htext
      have := hlong piece (by simp [htext, commaPieces_append_cons hpiece])
      omega
  | @comma a s rest ha _ ih =>
      have hnotMem : ',' ∉ a.type := by
        intro hmem
        obtain ⟨piece, tail, htext, hpiece, hshort⟩ :=
          TypedName.exists_short_piece ha hmem (',' :: s)
        have := hlong piece (by simp [htext, commaPieces_append_cons hpiece])
        omega
      rw [commaPieces_append_cons (TypedName.comma_notMem_text ha hnotMem),
        List.forall_mem_cons] at hlong
      exact List.forall_mem_cons.mpr ⟨hnotMem, ih hlong.2⟩

/-- A list is read as arguments whose types hold no comma exactly if each piece between its commas
is a type and an identifier. -/
theorem tokenizeArguments_commaPieces (text signature : String)
    (pairs : List (String × String)) :
    (tokenizeArguments text signature = .ok pairs ∧ ∀ pair ∈ pairs, ',' ∉ pair.1.toList) ↔
      (commaPieces (strip text.toList)).map words =
          (pairs.map fun pair => [pair.1.toList, pair.2.toList]) ∧
        ∀ pair ∈ pairs, isIdentifier pair.2.toList = true := by
  rw [tokenizeArguments_eq_ok_iff]
  constructor
  · rintro ⟨⟨arguments, hlists, rfl⟩, hcomma⟩
    rw [List.forall_mem_map] at hcomma
    rw [hlists.map_words_commaPieces fun a ha => by simpa [TypedName.token] using hcomma a ha,
      List.forall_mem_map]
    refine ⟨by simp [TypedName.token], ?_⟩
    intro a ha
    simpa [TypedName.token] using (hlists.wellFormed_of_mem ha).name_isIdentifier
  · rintro ⟨hwords, hname⟩
    have hmap : (commaPieces (strip text.toList)).map words =
        (pairs.map fun pair => (pair.1.toList, pair.2.toList)).map
          fun pair => [pair.1, pair.2] := by
      rw [hwords, List.map_map]
      rfl
    obtain ⟨arguments, hlists, harguments, hcomma⟩ :=
      exists_lists_of_map_words hmap (List.forall_mem_map.mpr hname)
    have htoken : TypedName.token =
        (fun pair => (String.ofList pair.1, String.ofList pair.2)) ∘ fun a => (a.type, a.name) :=
      rfl
    have hpairs : arguments.map TypedName.token = pairs := by
      rw [htoken, ← List.map_map, harguments, List.map_map]
      simp [Function.comp_def]
    refine ⟨⟨arguments, hlists, hpairs⟩, ?_⟩
    rw [← hpairs, List.forall_mem_map]
    intro a ha
    simpa [TypedName.token] using hcomma a ha

/-- A doubled comma is no error: the second becomes a part of the type that follows. -/
theorem tokenizeArguments_doubledComma :
    tokenizeArguments "int a,,long b" "" = .ok [("int", "a"), (",long", "b")] ∧
      (commaPieces "int a,,long b".toList).map words =
        [["int".toList, "a".toList], [], ["long".toList, "b".toList]] := by
  decide +kernel

end MethodSig.Signature
