import MethodSig.Proofs.Signature.Grammar
import MethodSig.Proofs.Text.Spacing

/-!
# The marks of a signature

The characters of a cleaned signature that are neither blank nor a comma nor a semicolon are those
of its types and names and its two parentheses. So their number is known from the parts.
-/

namespace MethodSig.Signature

open Text

variable {s t : List Char}

/-- The character is neither blank nor a comma nor a semicolon. -/
def isMark (c : Char) : Bool :=
  !isBlank c && c ≠ ',' && c ≠ ';'

def marks (s : List Char) : ℕ :=
  s.countP isMark

/-- The number of marks that a signature with the given parts consists of, two of them its
parentheses. -/
def marksOf (parts : Tokens) : ℕ :=
  marks (parts.resultType.toList ++ (parts.name.toList ++
    parts.arguments.flatMap fun a => a.1.toList ++ a.2.toList)) + 2

theorem marks_append (s t : List Char) : marks (s ++ t) = marks s + marks t :=
  List.countP_append

theorem marks_cons_of_isMark_eq_false {c : Char} (hc : isMark c = false) (s : List Char) :
    marks (c :: s) = marks s :=
  List.countP_cons_of_neg (by simp [hc])

theorem isMark_eq_false_of_isBlank {b : Char} (hb : isBlank b = true) :
    isMark b = false := by
  simp [isMark, hb]

theorem isMark_of_insideIdentifier {c : Char} (hc : insideIdentifier c = true) :
    isMark c = true := by
  have hcomma : c ≠ ',' := by
    rintro rfl
    revert hc
    decide
  have hsemicolon : c ≠ ';' := by
    rintro rfl
    revert hc
    decide
  simp [isMark, isBlank_eq_false_of_insideIdentifier hc, hcomma, hsemicolon]

theorem marks_removeBlanks (s : List Char) : marks (removeBlanks s) = marks s := by
  rw [marks, removeBlanks, List.countP_filter]
  apply List.countP_congr
  intro c _
  by_cases hc : isBlank c = true
  · simp [isMark, hc]
  · simp [hc]

theorem marks_congr (h : removeBlanks s = removeBlanks t) : marks s = marks t := by
  rw [← marks_removeBlanks, h, marks_removeBlanks]

theorem marks_strip (s : List Char) : marks (strip s) = marks s :=
  marks_congr (removeBlanks_strip s)

theorem marks_of_blank (h : ∀ c ∈ s, isBlank c = true) : marks s = 0 := by
  rw [← marks_removeBlanks, removeBlanks_eq_nil_iff.mpr h]
  rfl

theorem TypedName.marks_text {a : TypedName} (ha : a.WellFormed) :
    marks a.text = marks a.type + marks a.name := by
  simp only [text, marks_append, marks_of_blank ha.before_blank, marks_of_blank ha.gap_blank,
    marks_of_blank ha.behind_blank]
  omega

theorem Lists.marks_eq {arguments : List TypedName} (h : Lists s arguments) :
    marks s = marks (arguments.flatMap fun a => a.type ++ a.name) := by
  induction h with
  | nil => rfl
  | @last a ha => rw [TypedName.marks_text ha, List.flatMap_singleton, marks_append]
  | @comma a s rest ha _ ih =>
      rw [marks_append, marks_cons_of_isMark_eq_false (by decide), ih, TypedName.marks_text ha,
        List.flatMap_cons, marks_append, marks_append]

theorem WrittenSignature.WellFormed.marks_text {w : WrittenSignature} (hw : w.WellFormed) :
    marks w.text = marksOf w.tokens := by
  have hlist : marks w.list = marks (w.arguments.flatMap fun a => a.type ++ a.name) := by
    rw [← hw.lists.marks_eq, marks_strip]
  have hending : marks w.ending = 0 := by
    rw [← marks_strip]
    rcases hw.strip_ending with h | h
    · rw [h]
      rfl
    · rw [h]
      rfl
  have hopening (s : List Char) : marks ('(' :: s) = marks s + 1 :=
    List.countP_cons_of_pos (by decide)
  have hclosing (s : List Char) : marks (')' :: s) = marks s + 1 :=
    List.countP_cons_of_pos (by decide)
  rw [text, marks_append, hopening, marks_append, hclosing, TypedName.marks_text hw.head_wellFormed,
    hlist, hending, marksOf, tokens, marks_append, marks_append]
  simp only [String.toList_ofList, List.flatMap_map, TypedName.token]
  omega

/-- The marks of a signature that is read are those of its parts. -/
theorem marks_clean {s : String} {tokens : Tokens} (h : tokenize s = .ok tokens) :
    marks (clean s.toList) = marksOf tokens := by
  obtain ⟨w, hw, htext, rfl⟩ := tokenize_eq_ok_iff.mp h
  rw [← hw.marks_text, htext]

end MethodSig.Signature
