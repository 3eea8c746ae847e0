import MethodSig.Proofs.Batch.Diagnostics
import MethodSig.Proofs.Method.SharedKeys

/-!
# What a batch is refused for

A batch is refused for the first argument that differs in type from the earliest argument of its
name, wherever the two stand. If there is none, it is refused for the first two methods of the
least sort key that methods share, unless duplicates are tolerated: then each method beyond the
first of its key leaves a warning.
-/

namespace MethodSig

open Attempt (Raises)

namespace Compiler

variable {c : Compiler} {methods : List Method}

theorem raises_finish_conflictingArgument_iff (conflict : ArgumentConflict) :
    Raises (c.finish methods) (.conflictingArgument conflict) ↔
      checkConsistency methods = .error conflict := by
  rw [raises_finish_iff]
  simp

theorem raises_finish_duplicateMethods_iff (first second : String) :
    Raises (c.finish methods) (.duplicateMethods first second) ↔
      c.policy = .reject ∧ Consistent (methods.flatMap Method.arguments) ∧
        ∃ pair, (Method.sort .reject methods).value = .error pair ∧
          first = pair.1.render ∧ second = pair.2.render := by
  rw [raises_finish_iff, checkConsistency_eq_ok_iff]
  cases hpolicy : c.policy with
  | warn => simp [Method.value_sort_warn]
  | reject => simp

end Compiler

/-- The check passes exactly if the names of the arguments decide their types. Otherwise it reports
the first argument that differs from the earliest one of its name, whose type is named first. -/
theorem checkConsistency_firstConflict (methods : List Method) :
    (checkConsistency methods = .ok () ↔
      ∃ typeOf : String → Descriptor,
        ∀ m ∈ methods, ∀ a ∈ m.arguments, a.type = typeOf a.name) ∧
    ∀ conflict : ArgumentConflict,
      (checkConsistency methods = .error conflict ↔
        conflict.IsFirst (methods.flatMap Method.arguments)) ∧
      (∀ c : Compiler, Raises (c.finish methods) (.conflictingArgument conflict) ↔
        conflict.IsFirst (methods.flatMap Method.arguments)) ∧
      (Diagnostic.conflictingArgument conflict).message =
        s!"Argument [{conflict.name}] is used in multiple methods with different types " ++
          s!"{conflict.first.name}, {conflict.second.name}" := by
  constructor
  · rw [checkConsistency_eq_ok_iff, consistent_iff_exists_typeOf]
    apply exists_congr
    intro typeOf
    constructor
    · intro h m hm a ha
      exact h a (List.mem_flatMap.mpr ⟨m, hm, ha⟩)
    · intro h a ha
      obtain ⟨m, hm, ha⟩ := List.mem_flatMap.mp ha
      exact h m hm a ha
  · intro conflict
    have hcheck := checkConsistency_eq_error_iff methods conflict
    refine ⟨hcheck, ?_, rfl⟩
    intro c
    rw [Compiler.raises_finish_conflictingArgument_iff, hcheck]

namespace Method

/-- Sorting returns the one stable order of the batch. Although it compares neighbours only, it
finds every key that methods share: it leaves one warning for each method beyond the first of its
key or, where duplicates are refused, shows the first two methods of the least shared key. -/
theorem sort_sharedKeys (methods : List Method) :
    ∃ ordered, (∀ other, IsStableOrder methods other ↔ other = ordered) ∧
      (sort .warn methods).value = .ok ordered ∧
      (sort .warn methods).log =
        ((ordered.zip ordered.tail).filter fun pair => pair.1.sortKey = pair.2.sortKey).map
          (fun pair => .duplicateMethods pair.1.render pair.2.render) ∧
      (sort .warn methods).log.length + (methods.map sortKey).toFinset.card = methods.length ∧
      (sort .reject methods).log = [] ∧
      ((sort .reject methods).value = .ok ordered ↔
        ∀ key, ¬ (methods.map sortKey).Duplicate key) ∧
      ((∃ pair, (sort .reject methods).value = .error pair) ↔
        ∃ key, (methods.map sortKey).Duplicate key) ∧
      (∀ first second, (sort .reject methods).value = .error (first, second) ↔
        ∃ key, IsLeastShared methods key ∧
          [first, second] <+: methods.filter (·.sortKey = key)) ∧
      ∀ (c : Compiler) (first second : String),
        Raises (c.finish methods) (.duplicateMethods first second) ↔
          c.policy = .reject ∧ Consistent (methods.flatMap Method.arguments) ∧
            ∃ pair, (sort .reject methods).value = .error pair ∧
              first = pair.1.render ∧ second = pair.2.render := by
  refine ⟨inOrder methods, isStableOrder_iff methods, value_sort_warn methods,
    log_sort_warn methods, length_log_sort_warn methods, log_sort_reject methods, ?_,
    exists_value_sort_eq_error_iff methods, value_sort_eq_error_iff methods, ?_⟩
  · rw [value_sort_eq_ok_iff, ← List.nodup_iff_forall_not_duplicate]
    simp
  · intro c first second
    exact Compiler.raises_finish_duplicateMethods_iff first second

end Method

end MethodSig
