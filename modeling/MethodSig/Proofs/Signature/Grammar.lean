import Mathlib.Data.Set.Subsingleton
import MethodSig.Proofs.Signature.Tokens
import MethodSig.Proofs.Signature.Written

/-!
# The grammar of signatures

A signature is written as a result type and a name, an argument list in parentheses, and at most a
semicolon. A cleaned text that is written in this way is so in one way only, and its tokens are
the parts; every other text is malformed.
-/

namespace MethodSig.Signature

open Text

/-- The parts of a signature. -/
structure WrittenSignature where
  /-- The result type and the name of the method. -/
  head : TypedName
  /-- The text between the parentheses. -/
  list : List Char
  /-- The arguments that stand in that text. -/
  arguments : List TypedName
  ending : List Char

namespace WrittenSignature

def text (w : WrittenSignature) : List Char :=
  w.head.text ++ '(' :: (w.list ++ ')' :: w.ending)

def tokens (w : WrittenSignature) : Tokens :=
  ⟨String.ofList w.text, String.ofList w.head.type, String.ofList w.head.name,
    w.arguments.map TypedName.token⟩

/-- The parts are what they are called, and the parentheses around the list are the last of the
signature. -/
structure WellFormed (w : WrittenSignature) : Prop where
  head_wellFormed : w.head.WellFormed
  opening_notMem : '(' ∉ w.list
  closing_notMem : ')' ∉ w.list
  lists : Lists (strip w.list) w.arguments
  strip_ending : strip w.ending = [] ∨ strip w.ending = [';']

end WrittenSignature

/-! ## The outline -/

theorem opening_notMem_of_splitAtLastOpening {s before after : List Char}
    (h : splitAtLastOpening s = some (before, after)) : '(' ∉ after := by
  unfold splitAtLastOpening at h
  split at h
  next => simp at h
  next c rest hdrop =>
    simp only [Option.some.injEq, Prod.mk.injEq] at h
    obtain ⟨-, rfl⟩ := h
    intro hmem
    have := List.mem_takeWhile_imp (List.mem_reverse.mp hmem)
    simp at this

/-- The outline of a signature consists of its parts. -/
theorem exists_text_of_outline? {s resultType name list : List Char}
    (h : outline? s = some (resultType, name, list)) (hname : isIdentifier name = true) :
    ∃ head : TypedName, ∃ ending, head.WellFormed ∧ head.type = resultType ∧ head.name = name ∧
      '(' ∉ list ∧ ')' ∉ list ∧ (strip ending = [] ∨ strip ending = [';']) ∧
      s = head.text ++ '(' :: (list ++ ')' :: ending) := by
  simp only [outline?, Option.bind_eq_bind, Option.bind_eq_some_iff, Prod.exists] at h
  obtain ⟨before, after, hsplit, h⟩ := h
  split at h
  next resultType' name' hwords =>
    split at h
    next ending hending =>
      simp only [Option.bind_eq_some_iff, Option.pure_def, Option.some.injEq, Prod.mk.injEq] at h
      obtain ⟨_, hguard, rfl, rfl, rfl⟩ := h
      obtain ⟨head, hhead, rfl, rfl, rfl⟩ := TypedName.exists_text_of_words hwords hname
      have hopening := opening_notMem_of_splitAtLastOpening hsplit
      have hafter : after.takeWhile (· ≠ ')') ++ ')' :: ending = after := by
        rw [← hending, List.takeWhile_append_dropWhile]
      refine ⟨head, ending, hhead, rfl, rfl, ?_, ?_, ?_, ?_⟩
      · exact fun hmem => hopening ((List.takeWhile_sublist _).subset hmem)
      · intro hmem
        have := List.mem_takeWhile_imp hmem
        simp at this
      · have hending : isEnding ending = true := by
          by_contra hne
          simp [guard, hne] at hguard
        simpa [isEnding] using hending
      · rw [hafter]
        exact eq_of_splitAtLastOpening hsplit
    next => simp at h
  next => simp at h

namespace WrittenSignature

variable {w w' : WrittenSignature}

/-- Behind the closing parenthesis there is nothing but blanks and a semicolon. -/
theorem WellFormed.notMem_ending (hw : w.WellFormed) {c : Char} (hc : isBlank c = false)
    (hne : c ≠ ';') : c ∉ w.ending := by
  intro hmem
  have hstrip := mem_strip hmem hc
  rcases hw.strip_ending with h | h
  · simp [h] at hstrip
  · simp [h, hne] at hstrip

theorem WellFormed.opening_notMem_ending (hw : w.WellFormed) : '(' ∉ w.ending :=
  hw.notMem_ending (by decide) (by decide)

theorem WellFormed.closing_notMem_ending (hw : w.WellFormed) : ')' ∉ w.ending :=
  hw.notMem_ending (by decide) (by decide)

theorem WellFormed.opening_notMem_rest (hw : w.WellFormed) :
    '(' ∉ w.list ++ ')' :: w.ending := by
  simp [hw.opening_notMem, hw.opening_notMem_ending]

theorem outline?_text (hw : w.WellFormed) :
    outline? w.text = some (w.head.type, w.head.name, w.list) := by
  have hlist : ∀ c ∈ w.list, decide (c ≠ ')') = true := by
    intro c hc
    rw [decide_eq_true_eq]
    rintro rfl
    exact hw.closing_notMem hc
  have hending : isEnding w.ending = true := by
    simpa [isEnding] using hw.strip_ending
  have htake : (w.list ++ ')' :: w.ending).takeWhile (· ≠ ')') = w.list :=
    takeWhile_append_of_head hlist (by simp)
  have hdrop : (w.list ++ ')' :: w.ending).dropWhile (· ≠ ')') = ')' :: w.ending :=
    dropWhile_append_of_head hlist (by simp)
  simp only [outline?, text, splitAtLastOpening_append_cons hw.opening_notMem_rest,
    TypedName.words_text hw.head_wellFormed, Option.bind_eq_bind, Option.bind_some, hdrop, htake,
    hending]
  rfl

/-- A signature is written in one way only. -/
theorem WellFormed.unique (hw : w.WellFormed) (hw' : w'.WellFormed) (h : w.text = w'.text) :
    w = w' := by
  have hlist : w.list = w'.list := by
    have houtline := outline?_text hw
    rw [h, outline?_text hw'] at houtline
    simp only [Option.some.injEq, Prod.mk.injEq] at houtline
    exact houtline.2.2.symm
  obtain ⟨htext, hrest⟩ :=
    (append_cons_inj_of_last hw.opening_notMem_rest hw'.opening_notMem_rest).mp h
  have hhead : w.head = w'.head := by
    rw [← (TypedName.ofText_text hw.head_wellFormed).1, htext,
      (TypedName.ofText_text hw'.head_wellFormed).1]
  have hending : w.ending = w'.ending := by
    rw [hlist, List.append_cancel_left_eq, List.cons.injEq] at hrest
    exact hrest.2
  have harguments : w.arguments = w'.arguments :=
    hw.lists.unique (hlist ▸ hw'.lists)
  obtain ⟨head, list, arguments, ending⟩ := w
  obtain ⟨head', list', arguments', ending'⟩ := w'
  simp only at hhead hlist harguments hending
  rw [hhead, hlist, harguments, hending]

end WrittenSignature

/-! ## Tokens -/

/-- A signature is taken apart exactly if its cleaned text is written by the grammar. -/
theorem tokenize_eq_ok_iff {signature : String} {tokens : Tokens} :
    tokenize signature = .ok tokens ↔
      ∃ w : WrittenSignature, w.WellFormed ∧ w.text = clean signature.toList ∧
        w.tokens = tokens := by
  constructor
  · intro h
    unfold tokenize at h
    dsimp only at h
    split at h
    next => simp at h
    next resultType name list houtline =>
      split at h
      next hname =>
        obtain ⟨head, ending, hhead, rfl, rfl, hopening, hclosing, hending, hs⟩ :=
          exists_text_of_outline? houtline hname
        cases hread : tokenizeArguments (String.ofList list) signature with
        | error malformed => simp [hread, Except.map] at h
        | ok pairs =>
            obtain ⟨arguments, hlists, rfl⟩ := tokenizeArguments_eq_ok_iff.mp hread
            rw [String.toList_ofList] at hlists
            simp only [hread, Except.map, Except.ok.injEq] at h
            refine ⟨⟨head, list, arguments, ending⟩,
              ⟨hhead, hopening, hclosing, hlists, hending⟩, hs.symm, ?_⟩
            rw [← h, hs]
            rfl
      next => simp at h
  · rintro ⟨w, hw, htext, rfl⟩
    have hread : tokenizeArguments (String.ofList w.list) signature =
        .ok (w.arguments.map TypedName.token) := by
      rw [tokenizeArguments_eq_ok_iff]
      exact ⟨w.arguments, by rw [String.toList_ofList]; exact hw.lists, rfl⟩
    simp only [tokenize, ← htext, w.outline?_text hw, hread, hw.head_wellFormed.name_isIdentifier]
    rfl

/-- A malformed signature is reported as it was given. -/
theorem signature_of_tokenize_eq_error {signature : String} {malformed : Malformed}
    (h : tokenize signature = .error malformed) : malformed.signature = signature := by
  unfold tokenize at h
  dsimp only at h
  split at h
  next =>
    rw [Except.error.injEq] at h
    rw [← h]
  next resultType name list houtline =>
    split at h
    next hname =>
      -- an empty signature has no outline, so it is not blamed on its list
      have hne : signature.isEmpty = false := by
        rw [String.isEmpty_eq_false_iff]
        rintro rfl
        have hnone : outline? (clean "".toList) = none := by decide +kernel
        rw [hnone] at houtline
        contradiction
      rw [tokenizeArguments, hne, String.toList_ofList] at h
      cases hread : readArguments (strip list) with
      | ok pairs => simp [hread, Except.mapError, Except.map] at h
      | error flaw =>
          simp only [hread, Except.mapError, Except.map, Except.error.injEq] at h
          rw [← h]
          rfl
    next =>
      rw [Except.error.injEq] at h
      rw [← h]

/-- The ways to read the cleaned text of a signature by the grammar. -/
def readings (signature : String) : Set WrittenSignature :=
  {w | w.WellFormed ∧ w.text = clean signature.toList}

theorem readings_subsingleton (signature : String) : (readings signature).Subsingleton := by
  rintro w ⟨hw, htext⟩ w' ⟨hw', htext'⟩
  exact hw.unique hw' (htext.trans htext'.symm)

theorem tokenize_eq_ok_iff_readings {signature : String} {tokens : Tokens} :
    tokenize signature = .ok tokens ↔ ∃ w ∈ readings signature, w.tokens = tokens := by
  rw [tokenize_eq_ok_iff]
  simp only [readings, Set.mem_ofPred_eq, and_assoc]

/-- A cleaned text can be read by the grammar in at most one way. If it can, its parts are the
tokens of the signature, and if not, the signature is malformed. -/
theorem tokenize_written (signature : String) :
    (readings signature).Subsingleton ∧
      (∀ tokens, tokenize signature = .ok tokens ↔
        ∃ w ∈ readings signature, w.tokens = tokens) ∧
      (readings signature = ∅ ↔ ∃ flaw, tokenize signature = .error ⟨signature, flaw⟩) := by
  refine ⟨readings_subsingleton signature, fun tokens => tokenize_eq_ok_iff_readings, ?_⟩
  constructor
  · intro hempty
    cases htokenize : tokenize signature with
    | ok tokens =>
        obtain ⟨w, hw, -⟩ := tokenize_eq_ok_iff_readings.mp htokenize
        rw [hempty] at hw
        contradiction
    | error malformed =>
        refine ⟨malformed.flaw, ?_⟩
        rw [← signature_of_tokenize_eq_error htokenize]
  · rintro ⟨flaw, herror⟩
    apply Set.eq_empty_of_forall_notMem
    intro w hw
    have hok := tokenize_eq_ok_iff_readings.mpr ⟨w, hw, rfl⟩
    rw [herror] at hok
    contradiction

end MethodSig.Signature
