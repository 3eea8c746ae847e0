import MethodSig.Proofs.Json.ShortNumbers
import MethodSig.Validation.Scalar

/-!
# Checked scalars

When a step of a check succeeds, so did all the steps before it. A whole number that is taken has
not too many digits, in whatever form it was given.
-/

namespace MethodSig.Validation

open Json (HasFewDigits HasShortNumbers maxDigits)

namespace Checked

variable {α β : Type}

@[simp] theorem map_valid (f : α → β) (a : α) : f <$> valid a = valid (f a) := rfl

@[simp] theorem under_valid (step : Step) (a : α) : (valid a).under step = valid a := rfl

theorem map_eq_valid {f : α → β} {x : Checked α} {b : β} (h : f <$> x = .valid b) :
    ∃ a, x = .valid a ∧ f a = b := by
  cases x with
  | valid a =>
      cases h
      exact ⟨a, rfl, rfl⟩
  | invalid faults => cases h

theorem seq_eq_valid {f : Checked (α → β)} {x : Checked α} {b : β} (h : f <*> x = .valid b) :
    ∃ g a, f = .valid g ∧ x = .valid a ∧ g a = b := by
  cases f with
  | valid g =>
      obtain ⟨a, hx, hb⟩ := map_eq_valid h
      exact ⟨g, a, rfl, hx, hb⟩
  | invalid faults => cases h

theorem under_eq_valid {step : Step} {x : Checked α} {a : α} (h : x.under step = .valid a) :
    x = .valid a := by
  cases x with
  | valid b => exact h
  | invalid faults => cases h

theorem andThen_eq_valid {f : α → Checked β} {x : Checked α} {b : β}
    (h : x.andThen f = .valid b) : ∃ a, x = .valid a ∧ f a = .valid b := by
  cases x with
  | valid a => exact ⟨a, rfl, h⟩
  | invalid faults => cases h

end Checked

/-! ## Texts and whole numbers -/

@[simp] theorem text_string (s : String) : text (.string s) = .valid s := rfl

@[simp] theorem boolean_bool (b : Bool) : boolean (.bool b) = .valid b := rfl

@[simp] theorem natural_int (n : ℕ) : natural (.int n) = .valid n := by
  have hnonneg : ¬ (n : ℤ) < 0 := Int.not_lt.mpr (Int.natCast_nonneg n)
  rw [natural, integer, Checked.andThen, if_neg hnonneg, Int.toNat_natCast]

theorem hasFewDigits_of_bareInteger? {s : List Char} {n : ℤ} (h : bareInteger? s = some n)
    (hlength : s.length ≤ maxDigits) : HasFewDigits n.natAbs := by
  simp only [bareInteger?] at h
  generalize hdigits : (if s.head? = some '-' then s.drop 1 else s) = digits at h
  have hshort : digits.length ≤ maxDigits := by
    rw [← hdigits]
    split
    · rw [List.length_drop]
      omega
    · exact hlength
  split at h
  next hcanonical =>
    have hdigit : ∀ c ∈ digits, c.isDigit = true := by
      simp only [Bool.or_eq_true, Bool.and_eq_true, decide_eq_true_eq, List.all_eq_true]
        at hcanonical
      rcases hcanonical with rfl | ⟨-, hall⟩
      · exact List.forall_mem_singleton.mpr (by decide)
      · exact hall
    have hfew := Json.hasFewDigits_decimal hdigit hshort
    obtain rfl := Option.some.inj h
    split
    · simpa using hfew
    · simpa using hfew
  next => cases h

theorem hasFewDigits_of_integerText {s : List Char} {n : ℤ} (h : integerText s = .valid n) :
    HasFewDigits n.natAbs := by
  rw [integerText] at h
  split at h
  next => cases h
  next =>
    split at h
    next m hm =>
      cases h
      obtain ⟨numeral, hnumeral, hbare⟩ := Option.bind_eq_some_iff.mp hm
      rw [Option.filter_eq_some_iff] at hnumeral
      exact hasFewDigits_of_bareInteger? hbare (of_decide_eq_true hnumeral.2)
    next => cases h

theorem hasFewDigits_of_lt {n : ℕ} (h : n < Nat.pow 2 63) : HasFewDigits n := by
  have hlength : (Nat.toDigits 10 n).length ≤ 63 := by
    rw [Nat.length_toDigits_le_iff (by decide) (by decide)]
    exact Nat.lt_of_lt_of_le h (Nat.pow_le_pow_left (by decide) 63)
  exact Nat.le_trans hlength (by decide)

theorem hasFewDigits_of_integerFloat {x : Binary64} {n : ℤ} (h : integerFloat x = .valid n) :
    HasFewDigits n.natAbs := by
  rw [integerFloat] at h
  split at h
  next => cases h
  next =>
    split at h
    next => cases h
    next =>
      split at h
      next hsize =>
        cases h
        exact hasFewDigits_of_lt hsize
      next => cases h

theorem hasFewDigits_of_integer {value : Json} {n : ℤ} (hvalue : HasShortNumbers value)
    (h : integer value = .valid n) : HasFewDigits n.natAbs := by
  cases hvalue with
  | null => cases h
  | bool b =>
      cases h
      cases b with
      | false => decide
      | true => decide
  | int hfew =>
      cases h
      exact hfew
  | float x => exact hasFewDigits_of_integerFloat h
  | string s => exact hasFewDigits_of_integerText h
  | brokenString => cases h
  | array _ => cases h
  | object _ => cases h

/-- A number taken from a value that was read can be written and read again. -/
theorem hasFewDigits_of_natural {value : Json} {n : ℕ} (hvalue : HasShortNumbers value)
    (h : natural value = .valid n) : HasFewDigits n := by
  obtain ⟨m, hinteger, hm⟩ := Checked.andThen_eq_valid h
  have hfew := hasFewDigits_of_integer hvalue hinteger
  split at hm
  next => cases hm
  next hnonneg =>
    cases hm
    have habs : m.toNat = m.natAbs := by omega
    rwa [habs]

end MethodSig.Validation
