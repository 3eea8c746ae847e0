import MethodSig.Batch.Compiler
import MethodSig.Catalog.Core
import MethodSig.Proofs.Batch.Attempt
import MethodSig.Proofs.Method.Consistency
import MethodSig.Proofs.Method.Order
import MethodSig.Proofs.Method.UniqueName

/-!
# When compiling returns

For each stage of compiling, exactly when it returns a given result. Later modules use these
equivalences and do not open the stages again.
-/

namespace MethodSig

open Attempt (Returns)

@[simp] theorem Argument.ofName?_eq_some_iff {name : String} {type : Descriptor} {a : Argument} :
    Argument.ofName? name type = some a ↔ a.name = name ∧ a.type = type := by
  obtain ⟨name', type', hname⟩ := a
  unfold Argument.ofName?
  split
  · simp [eq_comm]
  · simp only [reduceCtorEq, false_iff]
    rintro ⟨rfl, -⟩
    contradiction

namespace Context

variable {context : Context}

@[simp] theorem returns_resolve_iff (text : String) (type : Descriptor) :
    Returns (context.resolve text) type ↔
      (context.resolver.resolve? text).value = some type := by
  simp only [resolve, Resolver.resolve, Attempt.returns_bind_iff, Attempt.returns_lift_iff,
    Logged.value_map, exists_eq_left']
  cases (context.resolver.resolve? text).value with
  | none => simp
  | some found => simp

/-- An argument is built exactly from a type text that resolves and a name that is an
identifier. -/
@[simp] theorem returns_buildArgument_iff (token : String × String) (a : Argument) :
    Returns (context.buildArgument token) a ↔
      (context.resolver.resolve? token.1).value = some a.type ∧ a.name = token.2 := by
  simp only [buildArgument, Attempt.returns_bind_iff, returns_resolve_iff]
  constructor
  · rintro ⟨type, htype, ha⟩
    cases hname : Argument.ofName? token.2 type with
    | none => simp [hname] at ha
    | some built =>
        rw [hname, Attempt.returns_pure_iff] at ha
        subst ha
        obtain ⟨hbuilt, rfl⟩ := Argument.ofName?_eq_some_iff.mp hname
        exact ⟨htype, hbuilt⟩
  · rintro ⟨htype, hname⟩
    refine ⟨a.type, htype, ?_⟩
    rw [Argument.ofName?_eq_some_iff.mpr ⟨hname, rfl⟩, Attempt.returns_pure_iff]

/-- A method is built exactly if all type texts resolve and the target has the member. -/
theorem returns_build_iff (target : Descriptor) (tokens : Signature.Tokens) (m : Method) :
    Returns (context.build target tokens) m ↔
      m.name = tokens.name ∧
        (context.resolver.resolve? tokens.resultType).value = some m.resultType ∧
        List.Forall₂ (fun token a => Returns (context.buildArgument token) a)
          tokens.arguments m.arguments ∧
        (context.bind target m.name m.argumentTypes).value = some m.member ∧
        m.uniqueName = none := by
  obtain ⟨name, resultType, arguments, member, uniqueName⟩ := m
  simp only [build, Attempt.returns_bind_iff, returns_resolve_iff, Attempt.returns_mapM_iff,
    Attempt.returns_lift_iff, exists_eq_left', Method.argumentTypes]
  constructor
  · rintro ⟨found, hresult, built, hargs, h⟩
    split at h
    next => simp at h
    next bound hbind =>
      simp only [Attempt.returns_bind_iff, Attempt.returns_lift_iff, Attempt.returns_pure_iff,
        Method.mk.injEq] at h
      obtain ⟨-, -, rfl, rfl, rfl, rfl, rfl⟩ := h
      exact ⟨rfl, hresult, hargs, hbind, rfl⟩
  · rintro ⟨rfl, hresult, hargs, hbind, rfl⟩
    refine ⟨resultType, hresult, arguments, hargs, ?_⟩
    rw [hbind]
    simp

end Context

namespace Compiler

variable {c : Compiler}

/-- A signature is bound exactly if it can be taken apart and a method is built from its
tokens. -/
theorem returns_bindSignature_iff (signature : String) (m : Method) :
    Returns (c.bindSignature signature) m ↔
      ∃ tokens, Signature.tokenize signature = .ok tokens ∧
        Returns (c.context.build c.target tokens) m := by
  simp only [bindSignature, Attempt.returns_bind_iff, Attempt.returns_lift_iff]
  cases Signature.tokenize signature with
  | ok tokens => simp
  | error malformed => simp

/-- A batch is finished exactly if its argument names are used consistently and, where duplicates
are refused, no two of its methods share a sort key. -/
theorem returns_finish_iff (methods batch : List Method) :
    Returns (c.finish methods) batch ↔
      Consistent (methods.flatMap Method.arguments) ∧
        (c.policy = .reject → (methods.map Method.sortKey).Nodup) ∧
        batch = Method.assignUniqueNames (Method.inOrder methods) := by
  rw [← checkConsistency_eq_ok_iff, finish]
  cases checkConsistency methods with
  | error conflict => simp
  | ok passed =>
      simp only [Method.canonicalize, Attempt.returns_bind_iff, Attempt.returns_lift_iff,
        Logged.value_map, exists_eq_left', true_and]
      have hsort : (Method.sort c.policy methods).value = .ok (Method.inOrder methods) ↔
          (c.policy = .reject → (methods.map Method.sortKey).Nodup) := by
        rw [Method.value_sort_eq_ok_iff]
        simp
      cases hvalue : (Method.sort c.policy methods).value with
      | error pair =>
          simp only [hvalue, reduceCtorEq, false_iff] at hsort
          simp [Except.map, hsort]
      | ok ordered =>
          obtain ⟨rfl, hnodup⟩ := Method.value_sort_eq_ok_iff.mp hvalue
          rw [eq_comm (a := batch)]
          simp only [Except.map, Attempt.returns_pure_iff]
          exact ⟨fun h => ⟨hnodup, h⟩, fun h => h.2⟩

/-- Signatures compile exactly if each of them is bound and what the hook makes of the bound
batch can be finished. -/
theorem returns_compile_iff (signatures : List String) (batch : List Method) :
    Returns (c.compile signatures) batch ↔
      ∃ bound, List.Forall₂ (fun s m => Returns (c.bindSignature s) m) signatures bound ∧
        Returns (c.finish (c.hook bound)) batch := by
  simp only [compile, Attempt.returns_bind_iff, Attempt.returns_mapM_iff]

/-- The compiler for signatures of a type of a catalog, without a hook. -/
def ofCatalog (k : Catalog) (namespaceName : String) (target : Descriptor)
    (policy : DuplicatePolicy) : Compiler :=
  ⟨target, k.context namespaceName, id, policy⟩

/-- The compiler for signatures of the root class against the core types. -/
def ofRoot (hook : Hook) (policy : DuplicatePolicy) : Compiler :=
  ⟨.named objectType, Catalog.core.context "java.lang", hook, policy⟩

end Compiler

end MethodSig
