import MethodSig.Proofs.Batch.Compiler
import MethodSig.Proofs.Signature.Tokens
import MethodSig.Proofs.Type.Checked

/-!
# What a diagnostic says of a batch

Compiling returns a batch or raises a diagnostic that the signatures warrant. No argument is ever
refused for its name, since only identifiers come out of a signature that can be taken apart, and
no array is ever refused for its dimensions.
-/

namespace MethodSig

open Attempt (Returns Raises)

/-- The texts in the tokens of a signature that are to be resolved. -/
def Signature.Tokens.typeTexts (tokens : Tokens) : List String :=
  tokens.resultType :: tokens.arguments.map Prod.fst

namespace Context

variable {context : Context} {fault : Diagnostic}

theorem raises_resolve_iff (text : String) :
    Raises (context.resolve text) fault ↔
      (context.resolver.resolve? text).value = none ∧ fault = .unresolvedType text := by
  simp only [resolve, Resolver.resolve, Attempt.raises_bind_iff, Attempt.not_raises_lift,
    Attempt.returns_lift_iff, Logged.value_map, exists_eq_left', false_or]
  cases (context.resolver.resolve? text).value with
  | none => simp [eq_comm]
  | some type => simp

/-- An argument whose name is an identifier is refused for its type only. -/
theorem raises_buildArgument_iff {token : String × String}
    (hname : Signature.isIdentifier token.2.toList = true) :
    Raises (context.buildArgument token) fault ↔ Raises (context.resolve token.1) fault := by
  rw [buildArgument, Attempt.raises_bind_iff, or_iff_left]
  rintro ⟨type, -, h⟩
  rw [Argument.ofName?, dif_pos hname] at h
  exact Attempt.not_raises_pure _ h

/-- Building fails for a type that does not resolve, or for want of a member. -/
theorem raises_build {target : Descriptor} {tokens : Signature.Tokens}
    (hnames : ∀ token ∈ tokens.arguments, Signature.isIdentifier token.2.toList = true)
    (h : Raises (context.build target tokens) fault) :
    (∃ text ∈ tokens.typeTexts, Raises (context.resolve text) fault) ∨
      ∃ arguments, List.Forall₂ (fun token a => Returns (context.buildArgument token) a)
          tokens.arguments arguments ∧
        (context.bind target tokens.name (arguments.map Argument.type)).value = none ∧
        fault = .unboundMember tokens.signature target.name := by
  simp only [build, Attempt.raises_bind_iff, Attempt.returns_mapM_iff, Attempt.not_raises_lift,
    Attempt.returns_lift_iff, exists_eq_left', false_or] at h
  rcases h with hresult | ⟨resultType, -, hargument | ⟨arguments, harguments, hmember⟩⟩
  · exact Or.inl ⟨tokens.resultType, List.mem_cons_self, hresult⟩
  · obtain ⟨token, htoken, hargument⟩ := Attempt.exists_raises_of_raises_mapM hargument
    rw [raises_buildArgument_iff (hnames token htoken)] at hargument
    exact Or.inl ⟨token.1, List.mem_cons_of_mem _ (List.mem_map_of_mem htoken), hargument⟩
  · refine Or.inr ⟨arguments, harguments, ?_⟩
    cases hbind : (context.bind target tokens.name (arguments.map Argument.type)).value with
    | none =>
        rw [hbind, Attempt.raises_throw_iff] at hmember
        exact ⟨rfl, hmember.symm⟩
    | some member => simp [hbind] at hmember

end Context

namespace Compiler

variable {c : Compiler} {fault : Diagnostic}

/-- What the signatures must be like for a diagnostic to be raised. Nothing warrants that an
argument is refused for its name. -/
def Warrants (c : Compiler) (signatures : List String) : Diagnostic → Prop
  | .malformed flaw => ∃ s ∈ signatures, Signature.tokenize s = .error flaw
  | .unresolvedType text =>
    ∃ s ∈ signatures, ∃ tokens, Signature.tokenize s = .ok tokens ∧ text ∈ tokens.typeTexts ∧
      (c.context.resolver.resolve? text).value = none
  | .unboundMember signature target =>
    ∃ s ∈ signatures, ∃ tokens arguments, Signature.tokenize s = .ok tokens ∧
      List.Forall₂ (fun token a => Returns (c.context.buildArgument token) a)
        tokens.arguments arguments ∧
      (c.context.bind c.target tokens.name (arguments.map Argument.type)).value = none ∧
      signature = tokens.signature ∧ target = c.target.name
  | .conflictingArgument conflict =>
    ∃ bound, List.Forall₂ (fun s m => Returns (c.bindSignature s) m) signatures bound ∧
      conflict.IsAmong ((c.hook bound).flatMap Method.arguments)
  | .duplicateMethods first second =>
    c.policy = .reject ∧
      ∃ bound, List.Forall₂ (fun s m => Returns (c.bindSignature s) m) signatures bound ∧
        ∃ pair ∈ Method.duplicates (Method.inOrder (c.hook bound)),
          first = pair.1.render ∧ second = pair.2.render
  | .invalidArgumentName _ => False

theorem warrants_of_raises_bindSignature {signatures : List String} {s : String}
    (hs : s ∈ signatures) (h : Raises (c.bindSignature s) fault) : c.Warrants signatures fault := by
  simp only [bindSignature, Attempt.raises_bind_iff, Attempt.not_raises_lift,
    Attempt.returns_lift_iff, exists_const, true_and, false_or] at h
  split at h
  next tokens htokens =>
    -- the names have been checked by now, so only the types and the member are left to fail
    have hnames (token : String × String) (htoken : token ∈ tokens.arguments) :
        Signature.isIdentifier token.2.toList = true :=
      ((Signature.isName_of_tokenize htokens).2 token htoken).1
    rcases Context.raises_build hnames h with
      ⟨text, htext, h⟩ | ⟨arguments, harguments, hmember, rfl⟩
    · obtain ⟨hnone, rfl⟩ := (Context.raises_resolve_iff text).mp h
      exact ⟨s, hs, tokens, htokens, htext, hnone⟩
    · exact ⟨s, hs, tokens, arguments, htokens, harguments, hmember, rfl, rfl⟩
  next flaw hflaw =>
    rw [Attempt.raises_throw_iff] at h
    subst h
    exact ⟨s, hs, hflaw⟩

/-- Finishing fails for a conflict between arguments or, if there is none, for duplicates that are
refused. -/
theorem raises_finish_iff (methods : List Method) :
    Raises (c.finish methods) fault ↔
      (∃ conflict, checkConsistency methods = .error conflict ∧
        fault = .conflictingArgument conflict) ∨
      checkConsistency methods = .ok () ∧
        ∃ pair, (Method.sort c.policy methods).value = .error pair ∧
          fault = .duplicateMethods pair.1.render pair.2.render := by
  rw [finish]
  cases checkConsistency methods with
  | error conflict => simp [eq_comm]
  | ok passed =>
      simp only [Method.canonicalize, Attempt.raises_bind_iff, Attempt.not_raises_lift,
        Attempt.returns_lift_iff, Logged.value_map, exists_eq_left', false_or]
      cases (Method.sort c.policy methods).value with
      | ok ordered => simp [Except.map]
      | error pair => simp [Except.map, eq_comm]

theorem warrants_of_raises_finish {signatures : List String} {bound : List Method}
    (hbound : List.Forall₂ (fun s m => Returns (c.bindSignature s) m) signatures bound)
    (h : Raises (c.finish (c.hook bound)) fault) : c.Warrants signatures fault := by
  rcases (raises_finish_iff (c.hook bound)).mp h with
    ⟨conflict, hconflict, rfl⟩ | ⟨-, pair, hsort, rfl⟩
  · exact ⟨bound, hbound, isAmong_of_checkConsistency hconflict⟩
  · exact ⟨Method.policy_eq_reject_of_value_sort hsort, bound, hbound, pair,
      Method.mem_duplicates_of_value_sort hsort, rfl, rfl⟩

theorem warrants_of_raises {signatures : List String} (h : Raises (c.compile signatures) fault) :
    c.Warrants signatures fault := by
  rw [compile, Attempt.raises_bind_iff] at h
  rcases h with h | ⟨bound, hbound, h⟩
  · obtain ⟨s, hs, h⟩ := Attempt.exists_raises_of_raises_mapM h
    exact warrants_of_raises_bindSignature hs h
  · rw [Attempt.returns_mapM_iff] at hbound
    exact warrants_of_raises_finish hbound h

/-- Compiling returns a batch or raises a diagnostic that the signatures warrant, and whatever is
resolved on the way, the number of dimensions of every array is positive. -/
theorem compile_returns_or_raises (c : Compiler) (signatures : List String) :
    ((∃ batch, Returns (c.compile signatures) batch) ∨
      ∃ fault, Raises (c.compile signatures) fault ∧ c.Warrants signatures fault) ∧
    ∀ (r : Resolver) (text : List Char), r.resolveChecked text = liftM (r.resolveChars text) := by
  refine ⟨?_, fun r text => r.resolveChecked_eq text⟩
  refine (Attempt.returns_or_raises (c.compile signatures)).imp_right ?_
  rintro ⟨fault, hfault⟩
  exact ⟨fault, hfault, warrants_of_raises hfault⟩

end Compiler

end MethodSig
