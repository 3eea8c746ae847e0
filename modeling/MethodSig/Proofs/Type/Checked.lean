import MethodSig.Type.Resolver

/-!
# Resolution never asks for an array without dimensions

An array has at least one dimension, and wrapping a type fails for any other number. Resolution
wraps types only in as many dimensions as a text has pairs of brackets at its end, or dots in
their place, so it comes to the same whether or not the number is checked.
-/

namespace MethodSig

theorem Descriptor.arrayOf_eq_ok (d : Descriptor) {n : Nat} (h : 0 < n) :
    d.arrayOf n = .ok (d.wrap n) := by
  rw [arrayOf, if_neg (by omega), Int.toNat_natCast]

namespace Resolver

/-- An array of the type that was found, if one was. -/
def wrapChecked (dimensions : Int) : Option Descriptor → Except Int (Option Descriptor)
  | none => .ok none
  | some d => some <$> d.arrayOf dimensions

theorem wrapChecked_eq_ok {n : Nat} (h : 0 < n) (found : Option Descriptor) :
    wrapChecked n found = .ok (found.map (·.wrap n)) := by
  cases found with
  | none => rfl
  | some d =>
      rw [wrapChecked, d.arrayOf_eq_ok h]
      rfl

/-- Resolution that ends with the number of dimensions where this is not positive. -/
def resolveChecked (r : Resolver) (text : List Char) : ExceptT Int Logged (Option Descriptor) :=
  let name := TypeText.normalize text
  if name.isEmpty then pure none
  else match r.direct? (String.ofList name) with
    | some d => pure (some d)
    | none =>
      match h : TypeText.arraySuffix? name with
      | some (base, dimensions) =>
        have : base.length < text.length := by
          have := TypeText.length_of_arraySuffix? h
          have := TypeText.dimensions_pos_of_arraySuffix? h
          have : name.length ≤ text.length := TypeText.length_normalize_le text
          omega
        do
          let found ← r.resolveChecked base
          ExceptT.mk (pure (wrapChecked dimensions found))
      | none => liftM (r.inNamespace (String.ofList name))
termination_by text.length

/-- Every number of dimensions that resolution comes to is positive. -/
theorem resolveChecked_eq (r : Resolver) (text : List Char) :
    r.resolveChecked text = liftM (r.resolveChars text) := by
  fun_induction resolveChars r text with
  | case1 text name hempty =>
      rw [resolveChecked, if_pos hempty]
      rfl
  | case2 text name hne d hdirect =>
      simp only [name] at hdirect
      rw [resolveChecked, if_neg hne]
      simp only [hdirect]
      rfl
  | case3 text name hne hdirect base n hsuffix _ ih =>
      simp only [name] at hdirect hsuffix
      rw [resolveChecked, if_neg hne]
      simp only [hdirect]
      split
      next base' n' h =>
        rw [hsuffix, Option.some.injEq, Prod.mk.injEq] at h
        obtain ⟨rfl, rfl⟩ := h
        have hn := TypeText.dimensions_pos_of_arraySuffix? hsuffix
        rw [ih]
        simp only [wrapChecked_eq_ok hn]
        exact (bind_pure_comp _ _).trans (liftM_map _ _).symm
      next h => simp [hsuffix] at h
  | case4 text name hne hdirect hsuffix =>
      simp only [name] at hdirect hsuffix
      rw [resolveChecked, if_neg hne]
      simp only [hdirect]
      split
      next h => simp [hsuffix] at h
      next => rfl

end Resolver

end MethodSig
