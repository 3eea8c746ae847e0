import Mathlib.Data.List.Basic
import MethodSig.Json.Reader
import MethodSig.Json.Writer

/-!
# Strings that were written are read back

Every character is read back from the way it is written, whatever stands behind it in its string.
-/

namespace MethodSig.Json

/-- Reading ends in the given value and leaves the given text. -/
def Reads {α : Type} {s : List Char} (x : Except Fault (α × Rest s)) (a : α) (left : List Char) :
    Prop :=
  ∃ h, x = .ok (a, ⟨left, h⟩)

/-! ## Numbered escapes -/

/-- The digits of the number of a control character are read as that number. -/
theorem exists_hexadecimal_eq {n : ℕ} (hn : n < 0x20) :
    ∃ a b c d, Text.hexadecimal 4 n = [a, b, c, d] ∧ hexNumber? a b c d = some n := by
  have hall : ∀ n < 0x20,
      Text.hexadecimal 4 n = ['0', '0', (n / 16).digitChar, (n % 16).digitChar] ∧
        hexNumber? '0' '0' (n / 16).digitChar (n % 16).digitChar = some n := by
    decide +kernel
  exact ⟨_, _, _, _, hall n hn⟩

theorem loneUnit_of_lt {n : ℕ} (hn : n < 0x20) : loneUnit n = some (Char.ofNat n) := by
  have hhigh : isHighSurrogate n = false := by
    simp only [isHighSurrogate, Bool.and_eq_false_iff, decide_eq_false_iff_not]
    omega
  have hlow : isLowSurrogate n = false := by
    simp only [isLowSurrogate, Bool.and_eq_false_iff, decide_eq_false_iff_not]
    omega
  rw [loneUnit, hhigh, hlow]
  rfl

/-- The number of a control character is read as that character. -/
theorem unicodeEscape_hexadecimal {n : ℕ} (hn : n < 0x20) (letter : Char) {s : List Char}
    (hs : s ≠ []) :
    unicodeEscape letter (Text.hexadecimal 4 n ++ s) = .ok (some (Char.ofNat n), s) := by
  obtain ⟨a, b, c, d, hdigits, hnumber⟩ := exists_hexadecimal_eq hn
  have hhigh : isHighSurrogate n = false := by
    simp only [isHighSurrogate, Bool.and_eq_false_iff, decide_eq_false_iff_not]
    omega
  rw [hdigits]
  simp only [List.cons_append, List.nil_append, unicodeEscape, hnumber]
  split
  next heq => contradiction
  next => contradiction
  next heq =>
    cases heq
    rw [hhigh, loneUnit_of_lt hn]
    rfl
  next heq _ _ =>
    cases heq
    rw [loneUnit_of_lt hn]

/-! ## Characters in a string -/

section Character

variable {opening s left text : List Char}

/-- A character that needs no escape is read as itself. -/
theorem reads_stringBody_cons {c : Char} (hquote : c ≠ '"') (hslash : c ≠ '\\')
    (hcontrol : ¬ c.toNat < 0x20) (h : Reads (stringBody opening s) (some text) left) :
    Reads (stringBody opening (c :: s)) (some (c :: text)) left := by
  obtain ⟨hlength, hs⟩ := h
  refine ⟨Nat.lt_succ_of_lt hlength, ?_⟩
  rw [stringBody]
  · rw [if_neg hcontrol, hs]
    rfl
  · exact hquote
  · exact fun heq _ => hslash heq
  · exact fun _ heq _ => hslash heq
  · exact fun _ _ heq _ => hslash heq

theorem reads_stringBody_escape {letter c : Char} (hletter : letter ≠ 'u')
    (hescape : escaped? letter = some c) (h : Reads (stringBody opening s) (some text) left) :
    Reads (stringBody opening ('\\' :: letter :: s)) (some (c :: text)) left := by
  obtain ⟨hlength, hs⟩ := h
  refine ⟨Nat.lt_succ_of_lt (Nat.lt_succ_of_lt hlength), ?_⟩
  rw [stringBody]
  · rw [hescape, hs]
    rfl
  · exact hletter

theorem reads_stringBody_unicodeEscape {escape : List Char} {c : Char}
    (hescape : unicodeEscape 'u' escape = .ok (some c, s))
    (h : Reads (stringBody opening s) (some text) left) :
    Reads (stringBody opening ('\\' :: 'u' :: escape)) (some (c :: text)) left := by
  obtain ⟨hlength, hs⟩ := h
  have hescapeLength := length_of_unicodeEscape hescape
  refine ⟨by simp only [List.length_cons]; omega, ?_⟩
  rw [stringBody]
  split
  next fault heq => simp [hescape] at heq
  next c' left' heq =>
    rw [hescape, Except.ok.injEq, Prod.mk.injEq] at heq
    obtain ⟨rfl, rfl⟩ := heq
    rw [hs]
    rfl

/-- A character is written behind a backslash as a letter that stands for it or as its number, or
it is written as itself. -/
theorem escapeChar_cases (c : Char) :
    (∃ letter, letter ≠ 'u' ∧ escaped? letter = some c ∧ escapeChar c = ['\\', letter]) ∨
      (c.toNat < 0x20 ∧ escapeChar c = '\\' :: 'u' :: Text.hexadecimal 4 c.toNat) ∨
      (c ≠ '"' ∧ c ≠ '\\' ∧ ¬ c.toNat < 0x20 ∧ escapeChar c = [c]) := by
  unfold escapeChar
  split_ifs with hquote hslash hfeed hreturn htab hback hform hcontrol
  · exact Or.inl ⟨'"', by decide, by rw [hquote]; decide, rfl⟩
  · exact Or.inl ⟨'\\', by decide, by rw [hslash]; decide, rfl⟩
  · exact Or.inl ⟨'n', by decide, by rw [hfeed]; decide, rfl⟩
  · exact Or.inl ⟨'r', by decide, by rw [hreturn]; decide, rfl⟩
  · exact Or.inl ⟨'t', by decide, by rw [htab]; decide, rfl⟩
  · exact Or.inl ⟨'b', by decide, by rw [hback]; decide, rfl⟩
  · exact Or.inl ⟨'f', by decide, by rw [hform]; decide, rfl⟩
  · exact Or.inr (Or.inl ⟨hcontrol, rfl⟩)
  · exact Or.inr (Or.inr ⟨hquote, hslash, hcontrol, rfl⟩)

theorem reads_stringBody_escapeChar (c : Char)
    (h : Reads (stringBody opening s) (some text) left) :
    Reads (stringBody opening (escapeChar c ++ s)) (some (c :: text)) left := by
  rcases escapeChar_cases c with ⟨letter, hletter, hescape, heq⟩ | ⟨hcontrol, heq⟩ |
    ⟨hquote, hslash, hcontrol, heq⟩
  · rw [heq]
    exact reads_stringBody_escape hletter hescape h
  · have hs : s ≠ [] := by
      obtain ⟨hlength, -⟩ := h
      rintro rfl
      simp at hlength
    have hescape := unicodeEscape_hexadecimal hcontrol 'u' hs
    rw [Char.ofNat_toNat] at hescape
    rw [heq]
    exact reads_stringBody_unicodeEscape hescape h
  · rw [heq]
    exact reads_stringBody_cons hquote hslash hcontrol h

end Character

theorem reads_stringBody_quote (opening left : List Char) :
    Reads (stringBody opening ('"' :: left)) (some []) left :=
  ⟨by simp, by rw [stringBody]⟩

/-- A string that was written is read behind its opening quote up to its closing one. -/
theorem reads_stringBody_flatMap (opening text left : List Char) :
    Reads (stringBody opening (text.flatMap escapeChar ++ '"' :: left)) (some text) left := by
  induction text with
  | nil => exact reads_stringBody_quote opening left
  | cons c text ih =>
      rw [List.flatMap_cons, List.append_assoc]
      exact reads_stringBody_escapeChar c ih

end MethodSig.Json
