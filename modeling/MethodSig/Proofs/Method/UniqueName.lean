import Mathlib.Data.List.Basic
import MethodSig.Method.UniqueName

/-!
# Unique names are unique

A numbered name determines its number, so the search for a free number ends at a name that is not
taken. Naming therefore never gives out a name that is in use, whatever the base names are.
-/

namespace MethodSig.UniqueName

theorem numbered_injective (base : String) : Function.Injective (numbered base) := by
  intro m n h
  have htext : toString m = toString n := by
    simpa [numbered, String.append_assoc] using h
  have hdigits : Nat.toDigits 10 m = Nat.toDigits 10 n := by
    simpa using congrArg String.toList htext
  rw [← Nat.ofDigitChars_ten_toDigits (n := m), hdigits, Nat.ofDigitChars_ten_toDigits]

/-! ## The search for a free number -/

theorem le_firstFree (base : String) (taken : List String) (n : ℕ) :
    n ≤ firstFree base taken n := by
  fun_induction firstFree base taken n with
  | case1 taken n hmem _ _ ih => omega
  | case2 taken n hnotMem => exact Nat.le_refl n

theorem numbered_firstFree_notMem (base : String) (taken : List String) (n : ℕ) :
    numbered base (firstFree base taken n) ∉ taken := by
  fun_induction firstFree base taken n with
  | case1 taken n hmem _ _ ih =>
      have hle := le_firstFree base (taken.erase (numbered base n)) (n + 1)
      have hne : numbered base (firstFree base (taken.erase (numbered base n)) (n + 1)) ≠
          numbered base n := by
        intro heq
        have := numbered_injective base heq
        omega
      rw [List.mem_erase_of_ne hne] at ih
      exact ih
  | case2 taken n hnotMem => exact hnotMem

/-! ## Naming -/

theorem Naming.used_next (bases : List String) (state : Naming) (base : String) :
    (state.next bases base).2.used = (state.next bases base).1 :: state.used := by
  unfold Naming.next
  dsimp only
  split <;> rfl

theorem Naming.next_notMem_used (bases : List String) (state : Naming) (base : String) :
    (state.next bases base).1 ∉ state.used := by
  unfold Naming.next
  dsimp only
  split
  next hfirst => simp_all
  next =>
    have hfree := numbered_firstFree_notMem base (state.used ++ bases)
      ((state.counts.lookup base).getD 1)
    intro hmem
    exact hfree (List.mem_append_left bases hmem)

@[simp] theorem length_assignFrom (bases : List String) (state : Naming) (rest : List String) :
    (assignFrom bases state rest).length = rest.length := by
  induction rest generalizing state with
  | nil => rfl
  | cons base rest ih => simp [assignFrom, ih]

/-- The names given out from some point on are distinct and not among those given out before. -/
theorem nodup_assignFrom (bases : List String) (state : Naming) (rest : List String) :
    (assignFrom bases state rest).Nodup ∧
      ∀ name ∈ assignFrom bases state rest, name ∉ state.used := by
  induction rest generalizing state with
  | nil => simp [assignFrom]
  | cons base rest ih =>
      obtain ⟨hnodup, hnew⟩ := ih (state.next bases base).2
      have hused := state.used_next bases base
      rw [assignFrom]
      constructor
      · refine List.nodup_cons.mpr ⟨?_, hnodup⟩
        intro hmem
        exact hnew _ hmem (by rw [hused]; exact List.mem_cons_self)
      · intro name hname
        rcases List.mem_cons.mp hname with rfl | hrest
        · exact state.next_notMem_used bases base
        · intro hold
          exact hnew name hrest (by rw [hused]; exact List.mem_cons_of_mem _ hold)

@[simp] theorem length_assign (bases : List String) : (assign bases).length = bases.length :=
  length_assignFrom bases _ bases

theorem nodup_assign (bases : List String) : (assign bases).Nodup :=
  (nodup_assignFrom bases _ bases).1

example : assign ["GET", "GET", "GET_1", "GET", "GET_1"] =
    ["GET", "GET_2", "GET_1", "GET_3", "GET_1_1"] := by
  decide +kernel

end MethodSig.UniqueName

namespace MethodSig.Method

def unnamed (m : Method) : Method :=
  { m with uniqueName := none }

theorem map_sortKey_map_unnamed (methods : List Method) :
    (methods.map unnamed).map sortKey = methods.map sortKey := by
  rw [List.map_map]
  rfl

theorem map_baseName_map_unnamed (methods : List Method) :
    (methods.map unnamed).map baseName = methods.map baseName := by
  rw [List.map_map]
  rfl

theorem flatMap_arguments_map_unnamed (methods : List Method) :
    (methods.map unnamed).flatMap arguments = methods.flatMap arguments := by
  rw [List.flatMap_map]
  rfl

theorem inOrder_map_unnamed (methods : List Method) :
    inOrder (methods.map unnamed) = (inOrder methods).map unnamed := by
  symm
  apply List.map_mergeSort
  intro a _ b _
  rfl

@[simp] theorem length_assignUniqueNames (methods : List Method) :
    (assignUniqueNames methods).length = methods.length := by
  simp [assignUniqueNames]

theorem getElem_assignUniqueNames {methods : List Method} {i : ℕ}
    (hi : i < (assignUniqueNames methods).length) :
    (assignUniqueNames methods)[i] =
      { methods.get ⟨i, by simpa using hi⟩ with
        uniqueName :=
          some ((UniqueName.assign (methods.map baseName)).get ⟨i, by simpa using hi⟩) } := by
  simp [assignUniqueNames]

theorem map_unnamed_assignUniqueNames (methods : List Method) :
    (assignUniqueNames methods).map unnamed = methods.map unnamed := by
  apply List.ext_getElem
  · simp
  · intro i _ _
    simp [getElem_assignUniqueNames, unnamed]

/-- The unique names of a batch are those given out for its base names. -/
theorem map_uniqueName_assignUniqueNames (methods : List Method) :
    (assignUniqueNames methods).map uniqueName =
      (UniqueName.assign (methods.map baseName)).map some := by
  apply List.ext_getElem
  · simp
  · intro i _ _
    simp [getElem_assignUniqueNames]

/-- Naming looks at no unique name that a method has already. -/
theorem assignUniqueNames_map_unnamed (methods : List Method) :
    assignUniqueNames (methods.map unnamed) = assignUniqueNames methods := by
  apply List.ext_getElem
  · simp
  · intro i _ _
    simp only [getElem_assignUniqueNames, List.get_eq_getElem, map_baseName_map_unnamed,
      List.getElem_map]
    rfl

end MethodSig.Method
