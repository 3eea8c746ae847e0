import MethodSig.Proofs.Batch.OrderInvariance
import MethodSig.Proofs.Catalog.Entries

/-!
# Reported duplicates are duplicates

Binding leaves debug entries only, so a report of duplicates comes from the sorting of the whole
batch, which sees neighbours that share a sort key. By then the arguments of the batch are known to
be consistent, so that such neighbours have the same arguments, and with these the same member.
-/

namespace MethodSig

namespace Attempt

variable {α β : Type}

/-- The attempt reports two methods as duplicates, be it in a warning or in its diagnostic. -/
def Reports (x : Attempt α) (first second : String) : Prop :=
  .duplicateMethods first second ∈ x.run.log ∨
    x.run.value = .error (.duplicateMethods first second)

variable {first second : String}

@[simp] theorem not_reports_pure (a : α) : ¬ Reports (pure a) first second := by
  simp [Reports]

@[simp] theorem reports_throw_iff (fault : Diagnostic) :
    Reports (throw fault : Attempt α) first second ↔ fault = .duplicateMethods first second := by
  simp [Reports]

@[simp] theorem reports_lift_iff (x : Logged α) :
    Reports (liftM x) first second ↔ .duplicateMethods first second ∈ x.log := by
  simp [Reports]

@[simp] theorem reports_bind_iff (x : Attempt α) (f : α → Attempt β) :
    Reports (x >>= f) first second ↔
      Reports x first second ∨ ∃ a, Returns x a ∧ Reports (f a) first second := by
  simp only [Reports, Returns, ExceptT.run_bind, Logged.log_bind, Logged.value_bind,
    List.mem_append]
  cases x.run.value with
  | ok a => simp [or_assoc]
  | error fault => simp

@[simp] theorem reports_map_iff (x : Attempt α) (f : α → β) :
    Reports (f <$> x) first second ↔ Reports x first second := by
  rw [map_eq_pure_bind, reports_bind_iff]
  simp

theorem exists_reports_of_reports_mapM {f : α → Attempt β} {items : List α}
    (h : Reports (items.mapM f) first second) : ∃ a ∈ items, Reports (f a) first second := by
  induction items with
  | nil => simp at h
  | cons a items ih =>
      rw [List.mapM_cons, reports_bind_iff] at h
      rcases h with h | ⟨b, -, h⟩
      · exact ⟨a, List.mem_cons_self, h⟩
      · rw [reports_bind_iff] at h
        rcases h with h | ⟨bs, -, h⟩
        · obtain ⟨a, ha, h⟩ := ih h
          exact ⟨a, List.mem_cons_of_mem _ ha, h⟩
        · exact absurd h (not_reports_pure _)

/-- Debug entries report nothing. -/
theorem not_reports_lift {x : Logged α} (hx : x.IsDebug) : ¬ Reports (liftM x) first second := by
  rw [reports_lift_iff]
  intro h
  simpa [Event.level] using hx _ h

end Attempt

namespace Context

variable {context : Context} {first second : String}

theorem not_reports_resolve (text : String) :
    ¬ (context.resolve text).Reports first second := by
  unfold resolve
  rw [Attempt.reports_bind_iff, not_or, not_exists]
  refine ⟨Attempt.not_reports_lift ((context.resolver.isDebug_resolve? text).map _), ?_⟩
  rintro found ⟨-, h⟩
  cases found with
  | ok type => simp at h
  | error text => simp at h

theorem not_reports_buildArgument (token : String × String) :
    ¬ (context.buildArgument token).Reports first second := by
  unfold buildArgument
  rw [Attempt.reports_bind_iff, not_or, not_exists]
  refine ⟨not_reports_resolve token.1, ?_⟩
  rintro type ⟨-, h⟩
  split at h
  · simp at h
  · simp at h

/-- Building a method reports no duplicates, if looking for its member leaves debug entries
only. -/
theorem not_reports_build {target : Descriptor} {tokens : Signature.Tokens}
    (hbind : ∀ name types, (context.bind target name types).IsDebug) :
    ¬ (context.build target tokens).Reports first second := by
  unfold build
  simp only [Attempt.reports_bind_iff, not_or, not_exists, not_and]
  refine ⟨not_reports_resolve _, fun resultType _ => ⟨?_, fun arguments _ => ⟨?_, ?_⟩⟩⟩
  · intro h
    obtain ⟨token, -, htoken⟩ := Attempt.exists_reports_of_reports_mapM h
    exact not_reports_buildArgument token htoken
  · exact Attempt.not_reports_lift (hbind _ _)
  · intro found _
    cases found with
    | none => simp
    | some member => simp [Logged.tell]

end Context

namespace Compiler

variable {c : Compiler} {first second : String}

theorem not_reports_bindSignature (signature : String)
    (hbind : ∀ name types, (c.context.bind c.target name types).IsDebug) :
    ¬ (c.bindSignature signature).Reports first second := by
  unfold bindSignature
  rw [Attempt.reports_bind_iff, not_or, not_exists]
  refine ⟨by simp [Logged.tell], ?_⟩
  rintro _ ⟨-, h⟩
  split at h
  · exact Context.not_reports_build hbind h
  · simp at h

/-- Finishing a batch reports duplicates only if its arguments are consistent, and then only
neighbours that share their sort key. -/
theorem mem_duplicates_of_reports_finish {methods : List Method}
    (h : (c.finish methods).Reports first second) :
    Consistent (methods.flatMap Method.arguments) ∧
      ∃ pair ∈ Method.duplicates (Method.inOrder methods),
        first = pair.1.render ∧ second = pair.2.render := by
  rw [← checkConsistency_eq_ok_iff]
  unfold finish at h
  split at h
  next => simp at h
  next hconsistent =>
    refine ⟨hconsistent, ?_⟩
    rw [Attempt.reports_bind_iff, Attempt.reports_lift_iff, Method.canonicalize,
      Logged.log_map] at h
    rcases h with h | ⟨sorted, hsorted, h⟩
    · exact Method.mem_duplicates_of_mem_log_sort h
    · rw [Attempt.returns_lift_iff, Logged.value_map] at hsorted
      cases hvalue : (Method.sort c.policy methods).value with
      | ok ordered =>
          rw [hvalue] at hsorted
          subst hsorted
          simp [Except.map] at h
      | error pair =>
          rw [hvalue] at hsorted
          subst hsorted
          rw [Except.map, Attempt.reports_throw_iff, Diagnostic.duplicateMethods.injEq] at h
          exact ⟨pair, Method.mem_duplicates_of_value_sort hvalue, h.1.symm, h.2.symm⟩

/-- Where duplicates are tolerated, all neighbours that share their sort key are reported. -/
theorem reports_finish_of_mem_duplicates (hpolicy : c.policy = .warn) {methods : List Method}
    (hconsistent : Consistent (methods.flatMap Method.arguments)) {pair : Method × Method}
    (h : pair ∈ Method.duplicates (Method.inOrder methods)) :
    (c.finish methods).Reports pair.1.render pair.2.render := by
  rw [finish, (checkConsistency_eq_ok_iff methods).mpr hconsistent, Attempt.reports_bind_iff,
    Attempt.reports_lift_iff, Method.canonicalize, Logged.log_map, hpolicy, Method.log_sort_warn]
  exact Or.inl (List.mem_map_of_mem h)

/-- Whatever is reported as a pair of duplicates comes from bound methods that share their sort
key, and such methods agree in everything but, perhaps, their results. -/
theorem compile_reports (k : Catalog) (namespaceName : String) (target : Descriptor)
    (policy : DuplicatePolicy) (signatures : List String) (first second : String)
    (h : ((ofCatalog k namespaceName target policy).compile signatures).Reports first second) :
    ∃ bound, List.Forall₂
        (fun s m => ((ofCatalog k namespaceName target policy).bindSignature s).Returns m)
        signatures bound ∧
      (∃ pair ∈ Method.duplicates (Method.inOrder bound),
        first = pair.1.render ∧ second = pair.2.render) ∧
      ∀ pair ∈ Method.duplicates (Method.inOrder bound),
        [pair.1, pair.2].Sublist bound ∧ pair.1.AgreeButResult pair.2 := by
  rw [compile, Attempt.reports_bind_iff] at h
  rcases h with h | ⟨bound, hbound, h⟩
  · obtain ⟨signature, -, hsignature⟩ := Attempt.exists_reports_of_reports_mapM h
    exact absurd hsignature (not_reports_bindSignature signature fun name types =>
      k.isDebug_bind namespaceName target name types)
  · rw [Attempt.returns_mapM_iff] at hbound
    obtain ⟨hconsistent, hpair⟩ := mem_duplicates_of_reports_finish h
    refine ⟨bound, hbound, hpair, ?_⟩
    intro pair hmem
    have hsublist := Method.sublist_of_mem_duplicates_inOrder hmem
    refine ⟨hsublist, agreeButResult_of_sortKey_eq (fun m hm => isBound_of_mem hbound hm)
      hconsistent (hsublist.subset (by simp)) (hsublist.subset (by simp)) ?_⟩
    exact Method.sortKey_eq_of_mem_duplicates hmem

/-- A method of the root class that waits. -/
def waiting (resultType : String) : Method :=
  ⟨"wait", .primitive resultType, [], ⟨objectType, "wait", [], some "void", false⟩, none⟩

/-- Two signatures that differ only in their result types are reported as duplicates. -/
theorem compile_reports_wait :
    let c := ofCatalog Catalog.core "java.lang" (.named objectType) .warn
    let signatures := ["void wait()", "int wait()"]
    (c.compile signatures).Reports "void wait();" "int wait();" ∧
      ∃ bound, List.Forall₂ (fun s m => (c.bindSignature s).Returns m) signatures bound ∧
        (∃ pair ∈ Method.duplicates (Method.inOrder bound),
          "void wait();" = pair.1.render ∧ "int wait();" = pair.2.render) ∧
        ∀ pair ∈ Method.duplicates (Method.inOrder bound),
          [pair.1, pair.2].Sublist bound ∧ pair.1.AgreeButResult pair.2 := by
  intro c signatures
  have hbound : Attempt.Returns (signatures.mapM c.bindSignature)
      [waiting "void", waiting "int"] := by decide +kernel
  have hordered : Method.inOrder [waiting "void", waiting "int"] =
      [waiting "void", waiting "int"] :=
    Method.inOrder_eq_self (List.pairwise_pair.mpr le_rfl)
  have hpair : (waiting "void", waiting "int") ∈
      Method.duplicates (Method.inOrder [waiting "void", waiting "int"]) := by
    rw [hordered]
    decide +kernel
  have hreports : (c.compile signatures).Reports "void wait();" "int wait();" := by
    refine (Attempt.reports_bind_iff _ _).mpr (Or.inr ⟨_, hbound, ?_⟩)
    exact reports_finish_of_mem_duplicates rfl (by simp [waiting, Consistent]) hpair
  exact ⟨hreports, compile_reports Catalog.core "java.lang" (.named objectType) .warn signatures
    "void wait();" "int wait();" hreports⟩

end Compiler

end MethodSig
