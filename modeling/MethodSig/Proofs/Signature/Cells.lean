import MethodSig.Proofs.Signature.Commas
import MethodSig.Proofs.Signature.Grammar
import MethodSig.Proofs.Text.Spacing

/-!
# The cells of a signature

The parentheses around the argument list, the commas in it and a semicolon at the end cut a
signature into cells. The first cell holds the result type and the name, and each further one holds
an argument or nothing. What the grammar reads off a signature are the words of its cells.
-/

namespace MethodSig.Signature

open Text

variable {s u v : List Char} {b c : Char}

/-! ## Separators -/

/-- The character ends a cell: a parenthesis or a comma with no opening parenthesis behind it, or a
semicolon with only blanks behind it. -/
def Separates (c : Char) (rest : List Char) : Prop :=
  c ∈ "(),".toList ∧ '(' ∉ rest ∨ c = ';' ∧ ∀ d ∈ rest, isBlank d = true

instance (c : Char) (rest : List Char) : Decidable (Separates c rest) :=
  have : Decidable (∀ d ∈ rest, isBlank d = true) := List.decidableBAll (isBlank · = true) rest
  inferInstanceAs (Decidable (_ ∨ _))

theorem separates_congr {r r' : List Char} (h : removeBlanks r = removeBlanks r') :
    Separates c r ↔ Separates c r' := by
  rw [Separates, Separates, mem_iff_of_removeBlanks_eq (by decide) h, ← removeBlanks_eq_nil_iff, h,
    removeBlanks_eq_nil_iff]

theorem not_separates_of_isBlank (hb : isBlank b = true) (rest : List Char) :
    ¬ Separates b rest := by
  have hsolid : "(),".toList.all (!isBlank ·) = true := by decide
  rintro (⟨hmem, -⟩ | ⟨rfl, -⟩)
  · have hnot := List.all_eq_true.mp hsolid b hmem
    rw [hb] at hnot
    contradiction
  · contradiction

theorem not_separates_of_mem_opening {rest : List Char} (h : '(' ∈ rest) : ¬ Separates c rest := by
  rintro (⟨-, hnotMem⟩ | ⟨-, hblank⟩)
  · exact hnotMem h
  · have := hblank '(' h
    contradiction

/-- The place between the two texts is at a blank, at a separator or at an end. -/
def IsEdge (u v : List Char) : Prop :=
  (∀ c ∈ u.getLast?, isBlank c = true ∨ Separates c v) ∨
    ∀ c ∈ v.head?, isBlank c = true ∨ Separates c v.tail

instance (u v : List Char) : Decidable (IsEdge u v) :=
  have : Decidable (∀ c ∈ u.getLast?, isBlank c = true ∨ Separates c v) :=
    Option.decidableForallMem u.getLast?
  have : Decidable (∀ c ∈ v.head?, isBlank c = true ∨ Separates c v.tail) :=
    Option.decidableForallMem v.head?
  inferInstanceAs (Decidable (_ ∨ _))

/-! ## Cells -/

/-- The texts between the separators. -/
def cells : List Char → List (List Char)
  | [] => [[]]
  | c :: rest => if Separates c rest then [] :: cells rest else (cells rest).modifyHead (c :: ·)

def cellWords (s : List Char) : List (List (List Char)) :=
  (cells s).map words

theorem cells_cons_of_separates {rest : List Char} (h : Separates c rest) :
    cells (c :: rest) = [] :: cells rest :=
  if_pos h

theorem cells_cons_of_not_separates {rest y : List Char} {behind : List (List Char)}
    (h : ¬ Separates c rest) (hcells : cells rest = y :: behind) :
    cells (c :: rest) = (c :: y) :: behind := by
  rw [cells, if_neg h, hcells]
  rfl

/-- The first cell goes up to the first separator. -/
theorem exists_cells_eq_cons (v : List Char) :
    ∃ y behind, cells v = y :: behind ∧
      ((∀ c ∈ y.head?, isBlank c = true) ↔
        ∀ c ∈ v.head?, isBlank c = true ∨ Separates c v.tail) := by
  induction v with
  | nil => exact ⟨[], [], rfl, by simp⟩
  | cons c rest ih =>
      obtain ⟨y, behind, hcells, -⟩ := ih
      by_cases h : Separates c rest
      · exact ⟨[], cells rest, cells_cons_of_separates h, by simp [h]⟩
      · exact ⟨c :: y, behind, cells_cons_of_not_separates h hcells, by simp [h]⟩

/-- The cells of a text depend on what follows it only through the cell that is cut there. -/
theorem exists_cells_append (u v : List Char) :
    ∃ before x, ((∀ c ∈ x.getLast?, isBlank c = true) ↔
        ∀ c ∈ u.getLast?, isBlank c = true ∨ Separates c v) ∧
      ∀ w y behind, removeBlanks w = removeBlanks v → cells w = y :: behind →
        cells (u ++ w) = before ++ (x ++ y) :: behind := by
  induction u using List.reverseRecOn generalizing v with
  | nil =>
      refine ⟨[], [], by simp, ?_⟩
      intro w y behind _ hcells
      exact hcells
  | append_singleton u c ih =>
      obtain ⟨before, x, -, happend⟩ := ih (c :: v)
      have hsame {w : List Char} (hw : removeBlanks w = removeBlanks v) :
          removeBlanks (c :: w) = removeBlanks (c :: v) := by
        rw [← List.singleton_append, removeBlanks_append, hw, ← removeBlanks_append]
        rfl
      by_cases h : Separates c v
      · refine ⟨before ++ [x], [], by simp [h], ?_⟩
        intro w y behind hw hcells
        have hcut := cells_cons_of_separates ((separates_congr hw).mpr h)
        rw [List.append_assoc, List.singleton_append, happend _ _ _ (hsame hw) hcut, hcells,
          List.append_nil, List.append_assoc, List.singleton_append, List.nil_append]
      · refine ⟨before, x ++ [c], by simp [h], ?_⟩
        intro w y behind hw hcells
        have hgoes := cells_cons_of_not_separates (mt (separates_congr hw).mp h) hcells
        rw [List.append_assoc, List.singleton_append, happend _ _ _ (hsame hw) hgoes,
          List.append_assoc, List.singleton_append]

/-- A blank is put into one cell, and it is put into a gap there if it is put at an edge. -/
theorem exists_cells_insert (hb : isBlank b = true) (u v : List Char) :
    ∃ before x y behind, cells (u ++ v) = before ++ (x ++ y) :: behind ∧
      cells (u ++ b :: v) = before ++ (x ++ b :: y) :: behind ∧ (IsGap x y ↔ IsEdge u v) := by
  obtain ⟨y, behind, hcells, hhead⟩ := exists_cells_eq_cons v
  obtain ⟨before, x, hlast, happend⟩ := exists_cells_append u v
  have hblank := cells_cons_of_not_separates (not_separates_of_isBlank hb v) hcells
  refine ⟨before, x, y, behind, happend v y behind rfl hcells, ?_, or_congr hlast hhead⟩
  exact happend (b :: v) (b :: y) behind (removeBlanks_cons_of_isBlank hb v) hblank

theorem cellWords_insert_of_isEdge (h : IsEdge u v) (hb : isBlank b = true) :
    cellWords (u ++ b :: v) = cellWords (u ++ v) := by
  obtain ⟨before, x, y, behind, hcells, hinsert, hgap⟩ := exists_cells_insert hb u v
  rw [cellWords, cellWords, hcells, hinsert, List.map_append, List.map_append, List.map_cons,
    List.map_cons, words_insert_of_isGap (hgap.mpr h) hb]

/-- Away from the edges a blank makes one cell a word longer. -/
theorem exists_cellWords_insert (h : ¬ IsEdge u v) (hb : isBlank b = true) :
    ∃ before ws ws' behind, cellWords (u ++ v) = before ++ ws :: behind ∧
      cellWords (u ++ b :: v) = before ++ ws' :: behind ∧ ws ≠ [] ∧
      ws'.length = ws.length + 1 := by
  obtain ⟨before, x, y, behind, hcells, hinsert, hgap⟩ := exists_cells_insert hb u v
  obtain ⟨hne, hlength⟩ := length_words_insert_of_not_isGap (mt hgap.mp h) hb
  refine ⟨before.map words, words (x ++ y), words (x ++ b :: y), behind.map words, ?_, ?_, hne,
    hlength⟩
  · rw [cellWords, hcells, List.map_append, List.map_cons]
  · rw [cellWords, hinsert, List.map_append, List.map_cons]

/-! ## Collapsed blanks -/

theorem isEdge_of_getLast (h : ∀ c ∈ u.getLast?, isBlank c = true) (v : List Char) :
    IsEdge u v :=
  .inl fun c hc => .inl (h c hc)

theorem isEdge_of_head (h : ∀ c ∈ v.head?, isBlank c = true) (u : List Char) : IsEdge u v :=
  .inr fun c hc => .inl (h c hc)

/-- Blanks behind a blank may be left out. -/
theorem cellWords_append_blanks {blanks : List Char} (hblanks : ∀ c ∈ blanks, isBlank c = true)
    (hu : ∀ c ∈ u.getLast?, isBlank c = true) (v : List Char) :
    cellWords (u ++ (blanks ++ v)) = cellWords (u ++ v) := by
  induction blanks with
  | nil => rfl
  | cons b blanks ih =>
      obtain ⟨hb, hblanks⟩ := List.forall_mem_cons.mp hblanks
      rw [List.cons_append, cellWords_insert_of_isEdge (isEdge_of_getLast hu _) hb, ih hblanks]

/-- Behind a blank the blanks of a text may be collapsed. -/
theorem cellWords_append_collapse (hu : ∀ c ∈ u.getLast?, isBlank c = true) (s : List Char) :
    cellWords (u ++ collapse s) = cellWords (u ++ s) := by
  induction hwords : words s generalizing s u with
  | nil =>
      have h := cellWords_append_blanks (words_eq_nil_iff.mp hwords) hu []
      rw [List.append_nil, List.append_nil] at h
      rw [collapse, hwords, List.intercalate_nil, List.append_nil, h]
  | cons w ws ih =>
      obtain ⟨blanks, rest, rfl, hblanks, -, -, hrest, hwords_rest⟩ :=
        exists_append_of_words_eq_cons hwords
      have hspaced : ∀ c ∈ (u ++ w ++ [' ']).getLast?, isBlank c = true := by
        simp [isBlank_space]
      have hgap := cellWords_insert_of_isEdge (isEdge_of_head hrest (u ++ w)) isBlank_space
      have htail := ih hspaced rest hwords_rest
      simp only [List.append_assoc, List.singleton_append] at hgap htail
      rw [cellWords_append_blanks hblanks hu, ← hgap, ← htail, collapse, hwords, collapse,
        hwords_rest]
      cases ws with
      | nil =>
          have hend := cellWords_insert_of_isEdge (isEdge_of_head (v := []) (by simp) (u ++ w))
            isBlank_space
          simp only [List.append_assoc, List.append_nil] at hend
          rw [List.intercalate_singleton, List.intercalate_nil, hend]
      | cons v ws =>
          rw [List.intercalate_cons_cons, List.append_assoc, List.singleton_append]

theorem cellWords_collapse (s : List Char) : cellWords (collapse s) = cellWords s :=
  cellWords_append_collapse (u := []) (by simp) s

/-! ## The cells of an outline -/

theorem cells_append_opening {rest : List Char} (h : '(' ∉ rest) (s : List Char) :
    cells (s ++ '(' :: rest) = s :: cells rest := by
  induction s with
  | nil => exact cells_cons_of_separates (.inl ⟨by decide, h⟩)
  | cons c s ih =>
      exact cells_cons_of_not_separates (not_separates_of_mem_opening (by simp)) ih

theorem splitOn_cons_of_ne (hc : c ≠ ',') (s : List Char) :
    (c :: s).splitOn ',' = (s.splitOn ',').modifyHead (c :: ·) := by
  rw [List.splitOn_eq_splitOnP, List.splitOnP_cons_eq_if_modifyHead, if_neg (by simpa using hc)]
  rfl

/-- The cells between the parentheses are the pieces between the commas. -/
theorem cells_append_closing {list ending : List Char} (hopening : '(' ∉ list)
    (hclosing : ')' ∉ list) (hending : '(' ∉ ending) :
    cells (list ++ ')' :: ending) = list.splitOn ',' ++ cells ending := by
  induction list with
  | nil => exact cells_cons_of_separates (.inl ⟨by decide, hending⟩)
  | cons c list ih =>
      rw [List.mem_cons, not_or] at hopening hclosing
      have ih := ih hopening.2 hclosing.2
      by_cases hcomma : c = ','
      · subst hcomma
        have hseparates : Separates ',' (list ++ ')' :: ending) :=
          .inl ⟨by decide, by simp [hopening.2, hending]⟩
        have hsplit : (',' :: list).splitOn ',' = [] :: list.splitOn ',' :=
          List.splitOnP_append_cons [] list (beq_self_eq_true ',')
        rw [List.cons_append, cells_cons_of_separates hseparates, ih, hsplit, List.cons_append]
      · obtain ⟨piece, pieces, hpieces⟩ := List.exists_cons_of_ne_nil (List.splitOn_ne_nil ',' list)
        have hkeeps : ¬ Separates c (list ++ ')' :: ending) := by
          rintro (⟨hmem, -⟩ | ⟨-, hblank⟩)
          · simp [Ne.symm hopening.1, Ne.symm hclosing.1, hcomma] at hmem
          · have := hblank ')' (by simp)
            contradiction
        rw [hpieces] at ih
        rw [List.cons_append, cells_cons_of_not_separates hkeeps ih, splitOn_cons_of_ne hcomma,
          hpieces]
        rfl

theorem cellWords_outline {head list ending : List Char} (hopening : '(' ∉ list)
    (hclosing : ')' ∉ list) (hending : '(' ∉ ending) :
    cellWords (head ++ '(' :: (list ++ ')' :: ending)) =
      words head :: (commaWords list ++ cellWords ending) := by
  rw [cellWords, cells_append_opening (by simp [hopening, hending]),
    cells_append_closing hopening hclosing hending, List.map_cons, List.map_append]
  rfl

theorem cellWords_of_removeBlanks_eq_nil (h : removeBlanks s = []) : cellWords s = [[]] := by
  have hleft := cellWords_append_blanks (removeBlanks_eq_nil_iff.mp h) (u := []) (by simp) []
  rw [List.append_nil, List.nil_append, List.append_nil] at hleft
  rw [hleft, cellWords, cells, List.map_singleton, words_nil]

theorem cellWords_of_removeBlanks_eq_semicolon (h : removeBlanks s = [';']) :
    cellWords s = [[], []] := by
  obtain ⟨x, y, rfl, hx, hy⟩ := exists_append_cons_of_removeBlanks (u := []) (v := []) h
  have hleft := cellWords_append_blanks (removeBlanks_eq_nil_iff.mp hx) (u := []) (by simp)
    (';' :: y)
  have hseparates : Separates ';' y := .inr ⟨rfl, removeBlanks_eq_nil_iff.mp hy⟩
  rw [List.nil_append, List.nil_append] at hleft
  rw [hleft, cellWords, cells_cons_of_separates hseparates, List.map_cons, words_nil, ← cellWords,
    cellWords_of_removeBlanks_eq_nil hy]

/-! ## The cells of a written signature -/

theorem removeBlanks_eq_of_strip {ending : List Char}
    (h : strip ending = [] ∨ strip ending = [';']) :
    removeBlanks ending = [] ∨ removeBlanks ending = [';'] :=
  h.imp strip_eq_nil_iff.mp (strip_eq_singleton_iff (by decide)).mp

/-- Behind the list there are cells without words, and how many depends on the semicolon only. -/
theorem cellWords_ending {ending ending' : List Char}
    (h : strip ending = [] ∨ strip ending = [';'])
    (heq : removeBlanks ending' = removeBlanks ending) :
    cellWords ending' = cellWords ending ∧ (cellWords ending).flatten = [] := by
  rcases removeBlanks_eq_of_strip h with h | h
  · rw [cellWords_of_removeBlanks_eq_nil h, cellWords_of_removeBlanks_eq_nil (heq.trans h)]
    exact ⟨rfl, rfl⟩
  · rw [cellWords_of_removeBlanks_eq_semicolon h,
      cellWords_of_removeBlanks_eq_semicolon (heq.trans h)]
    exact ⟨rfl, rfl⟩

namespace WrittenSignature

variable {w w' : WrittenSignature}

theorem removeBlanks_text (w : WrittenSignature) :
    removeBlanks w.text = removeBlanks w.head.text ++
      '(' :: (removeBlanks w.list ++ ')' :: removeBlanks w.ending) := by
  rw [text, removeBlanks_append, removeBlanks_cons_of_not_isBlank (by decide),
    removeBlanks_append, removeBlanks_cons_of_not_isBlank (by decide)]

/-- Two signatures with the same characters apart from blanks end in the same way. -/
theorem WellFormed.removeBlanks_ending (hw : w.WellFormed) (hw' : w'.WellFormed)
    (h : removeBlanks w'.text = removeBlanks w.text) :
    removeBlanks w'.ending = removeBlanks w.ending := by
  have hopening {w : WrittenSignature} (hw : w.WellFormed) :
      '(' ∉ removeBlanks w.list ++ ')' :: removeBlanks w.ending := by
    rw [List.mem_append, List.mem_cons, mem_removeBlanks_iff (by decide),
      mem_removeBlanks_iff (by decide)]
    simp [hw.opening_notMem, hw.opening_notMem_ending]
  have hclosing {w : WrittenSignature} (hw : w.WellFormed) : ')' ∉ removeBlanks w.ending := by
    rw [mem_removeBlanks_iff (by decide)]
    exact hw.closing_notMem_ending
  rw [removeBlanks_text, removeBlanks_text] at h
  obtain ⟨-, hrest⟩ := (append_cons_inj_of_last (hopening hw') (hopening hw)).mp h
  exact ((append_cons_inj_of_last (hclosing hw') (hclosing hw)).mp hrest).2

theorem WellFormed.cellWords_text (hw : w.WellFormed) :
    cellWords w.text =
      [w.head.type, w.head.name] :: (commaWords w.list ++ cellWords w.ending) := by
  rw [text, cellWords_outline hw.opening_notMem hw.closing_notMem hw.opening_notMem_ending,
    TypedName.words_text hw.head_wellFormed]

theorem WellFormed.dropEmptyLast_commaWords (hw : w.WellFormed)
    (hcomma : ∀ a ∈ w.arguments, ',' ∉ a.type) :
    dropEmptyLast (commaWords w.list) = w.arguments.map fun a => [a.type, a.name] := by
  rw [← map_words_commaPieces_strip]
  exact hw.lists.map_words_commaPieces hcomma

/-- A text with the characters of a signature has its outline. -/
theorem WellFormed.exists_outline (hw : w.WellFormed)
    (h : removeBlanks s = removeBlanks w.text) :
    ∃ head list ending, s = head ++ '(' :: (list ++ ')' :: ending) ∧ '(' ∉ list ∧ ')' ∉ list ∧
      '(' ∉ ending ∧ removeBlanks ending = removeBlanks w.ending := by
  rw [removeBlanks_text] at h
  obtain ⟨head, rest, rfl, -, hrest⟩ := exists_append_cons_of_removeBlanks h
  obtain ⟨list, ending, rfl, hlist, hending⟩ := exists_append_cons_of_removeBlanks hrest
  refine ⟨head, list, ending, rfl, ?_, ?_, ?_, hending⟩
  · exact (mem_iff_of_removeBlanks_eq (by decide) hlist).not.mpr hw.opening_notMem
  · exact (mem_iff_of_removeBlanks_eq (by decide) hlist).not.mpr hw.closing_notMem
  · exact (mem_iff_of_removeBlanks_eq (by decide) hending).not.mpr hw.opening_notMem_ending

/-- A text with the characters of a signature and the words of its cells has its parts. -/
theorem WellFormed.exists_of_cellWords (hw : w.WellFormed)
    (hcomma : ∀ a ∈ w.arguments, ',' ∉ a.type) (hsolid : removeBlanks s = removeBlanks w.text)
    (hwords : cellWords s = cellWords w.text) :
    ∃ w' : WrittenSignature, w'.WellFormed ∧ w'.text = s ∧ w'.head.type = w.head.type ∧
      w'.head.name = w.head.name ∧
      w'.arguments.map TypedName.token = w.arguments.map TypedName.token := by
  obtain ⟨before, list, ending, rfl, hopening, hclosing, hopening', hending⟩ :=
    hw.exists_outline hsolid
  rw [cellWords_outline hopening hclosing hopening', hw.cellWords_text, List.cons.injEq,
    (cellWords_ending hw.strip_ending hending).1, List.append_left_inj] at hwords
  obtain ⟨htwo, hlist⟩ := hwords
  obtain ⟨head, hhead, rfl, htype, hname⟩ :=
    TypedName.exists_text_of_words htwo hw.head_wellFormed.name_isIdentifier
  have hpieces : (commaPieces (strip list)).map words =
      (w.arguments.map fun a => (a.type, a.name)).map fun pair => [pair.1, pair.2] := by
    rw [map_words_commaPieces_strip, hlist, hw.dropEmptyLast_commaWords hcomma, List.map_map]
    rfl
  have hnames : ∀ pair ∈ w.arguments.map (fun a => (a.type, a.name)),
      isIdentifier pair.2 = true := by
    rw [List.forall_mem_map]
    exact fun a ha => (hw.lists.wellFormed_of_mem ha).name_isIdentifier
  obtain ⟨arguments, hlists, harguments, -⟩ := exists_lists_of_map_words hpieces hnames
  have hstrip : strip ending = [] ∨ strip ending = [';'] := by
    rw [strip_eq_nil_iff, strip_eq_singleton_iff (by decide), hending]
    exact removeBlanks_eq_of_strip hw.strip_ending
  refine ⟨⟨head, list, arguments, ending⟩, ⟨hhead, hopening, hclosing, hlists, hstrip⟩, rfl,
    htype, hname, ?_⟩
  have htoken : TypedName.token =
      (fun pair => (String.ofList pair.1, String.ofList pair.2)) ∘ fun a => (a.type, a.name) :=
    rfl
  rw [htoken, ← List.map_map, harguments, List.map_map]

/-- Each cell with words has two of them, the first cell and one for each argument. -/
theorem WellFormed.flatten_cellWords (hw : w.WellFormed) (hcomma : ∀ a ∈ w.arguments, ',' ∉ a.type) :
    (cellWords w.text).flatten =
      w.head.type :: w.head.name :: w.arguments.flatMap fun a => [a.type, a.name] := by
  rw [hw.cellWords_text, List.flatten_cons, List.flatten_append,
    (cellWords_ending hw.strip_ending rfl).2, List.append_nil, ← flatten_dropEmptyLast,
    hw.dropEmptyLast_commaWords hcomma, ← List.flatMap_def]
  rfl

end WrittenSignature

end MethodSig.Signature
