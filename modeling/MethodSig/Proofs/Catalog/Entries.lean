import MethodSig.Catalog.Binding

/-!
# What looking up logs

Resolving a type text and looking for a member leave debug entries only, whatever is looked up and
whether or not it is found.
-/

namespace MethodSig

namespace Logged

variable {α β : Type}

/-- The computation leaves no entry that matters more than a debug entry. -/
def IsDebug (x : Logged α) : Prop :=
  ∀ e ∈ x.log, e.level = .debug

theorem isDebug_pure (a : α) : IsDebug (pure a) := by
  simp [IsDebug]

theorem isDebug_tell {e : Event} (h : e.level = .debug) : IsDebug (tell e) := by
  simpa [IsDebug, tell] using h

theorem IsDebug.bind {x : Logged α} {f : α → Logged β} (hx : x.IsDebug)
    (hf : ∀ a, (f a).IsDebug) : (x >>= f).IsDebug := by
  intro e he
  rcases List.mem_append.mp he with he | he
  · exact hx e he
  · exact hf x.value e he

/-- Entries that are known already may be left again. -/
theorem isDebug_forM_tell {entries : List Event} (h : ∀ e ∈ entries, e.level = .debug) :
    (entries.forM tell).IsDebug := by
  induction entries with
  | nil => exact isDebug_pure ()
  | cons e rest ih =>
      exact (isDebug_tell (h e List.mem_cons_self)).bind
        fun _ => ih fun e he => h e (List.mem_cons_of_mem _ he)

theorem IsDebug.map {x : Logged α} (hx : x.IsDebug) (f : α → β) : (f <$> x).IsDebug := by
  simpa [IsDebug] using hx

theorem IsDebug.mapM {f : α → Logged β} (hf : ∀ a, (f a).IsDebug) (items : List α) :
    (items.mapM f).IsDebug := by
  induction items with
  | nil => exact isDebug_pure []
  | cons a items ih =>
      rw [List.mapM_cons]
      exact (hf a).bind fun b => ih.bind fun bs => isDebug_pure (b :: bs)

end Logged

namespace Resolver

theorem isDebug_inNamespace (r : Resolver) (name : String) : (r.inNamespace name).IsDebug := by
  unfold inNamespace
  split
  · exact Logged.isDebug_pure none
  · exact (Logged.isDebug_tell rfl).bind fun _ => Logged.isDebug_pure _

theorem isDebug_resolveChars (r : Resolver) (text : List Char) :
    (r.resolveChars text).IsDebug := by
  fun_induction r.resolveChars text with
  | case1 => exact Logged.isDebug_pure none
  | case2 => exact Logged.isDebug_pure _
  | case3 _ _ _ _ _ _ _ _ ih => exact ih.map _
  | case4 => exact r.isDebug_inNamespace _

theorem isDebug_resolve? (r : Resolver) (text : String) : (r.resolve? text).IsDebug :=
  r.isDebug_resolveChars text.toList

end Resolver

namespace Catalog

variable (c : Catalog) (namespaceName : String)

theorem isDebug_supertypes (d : TypeDecl) : (c.supertypes namespaceName d).IsDebug := by
  refine (Logged.IsDebug.mapM ?_ d.supertypes).bind fun _ => Logged.isDebug_pure _
  intro text
  refine (Resolver.isDebug_resolve? _ text).bind ?_
  intro found
  split
  · exact Logged.isDebug_pure _
  · exact (Logged.isDebug_tell rfl).bind fun _ => Logged.isDebug_pure none

theorem isDebug_of_mem_visitsFrom {pending seen : List String} {v : Visit}
    (hv : v ∈ c.visitsFrom namespaceName pending seen) : ∀ e ∈ v.onward, e.level = .debug := by
  fun_induction c.visitsFrom namespaceName pending seen with
  | case1 => simp at hv
  | case2 _ _ _ _ ih => exact ih hv
  | case3 _ _ _ _ _ ih => exact ih hv
  | case4 _ _ _ _ d _ _ _ _ ih =>
      rcases List.mem_cons.mp hv with rfl | hv
      · exact c.isDebug_supertypes namespaceName d
      · exact ih hv

theorem isDebug_of_mem_visits {name : String} {v : Visit} (hv : v ∈ c.visits namespaceName name) :
    ∀ e ∈ v.onward, e.level = .debug := by
  have hdeclared {v : Visit} (hv : v ∈ c.visitsFrom namespaceName [name] []) :
      ∀ e ∈ v.onward, e.level = .debug := c.isDebug_of_mem_visitsFrom namespaceName hv
  unfold visits at hv
  dsimp only at hv
  split at hv
  · split at hv
    · rcases List.mem_append.mp hv with hv | hv
      · exact hdeclared hv
      · simp [List.mem_singleton.mp hv]
    · exact hdeclared hv
  · exact hdeclared hv

theorem isDebug_matchesMethod (scope : Resolver) (d : TypeDecl) (name : String)
    (types : List Descriptor) (m : MethodDecl) :
    (matchesMethod scope d name types m).IsDebug := by
  unfold matchesMethod
  split
  · exact (Logged.IsDebug.mapM scope.isDebug_resolve? _).bind
      fun _ => Logged.isDebug_pure _
  · exact Logged.isDebug_pure false

theorem isDebug_firstMatch (scope : Resolver) (d : TypeDecl) (name : String)
    (types : List Descriptor) (methods : List MethodDecl) :
    (firstMatch scope d name types methods).IsDebug := by
  induction methods with
  | nil => exact Logged.isDebug_pure none
  | cons m rest ih =>
      refine (isDebug_matchesMethod scope d name types m).bind ?_
      intro found
      split
      · exact Logged.isDebug_pure _
      · exact ih

theorem isDebug_firstMember {name : String} {types : List Descriptor} {visits : List Visit}
    (h : ∀ v ∈ visits, ∀ e ∈ v.onward, e.level = .debug) :
    (c.firstMember namespaceName name types visits).IsDebug := by
  induction visits with
  | nil => exact Logged.isDebug_pure none
  | cons v rest ih =>
      refine (isDebug_firstMatch _ _ _ _ _).bind ?_
      intro found
      split
      · exact Logged.isDebug_pure _
      · exact (Logged.isDebug_forM_tell (h v List.mem_cons_self)).bind
          fun _ => ih fun v hv => h v (List.mem_cons_of_mem _ hv)

theorem isDebug_bind (target : Descriptor) (name : String) (types : List Descriptor) :
    (c.bind namespaceName target name types).IsDebug := by
  unfold bind
  split
  · exact c.isDebug_firstMember namespaceName fun v hv => c.isDebug_of_mem_visits namespaceName hv
  · exact Logged.isDebug_pure none

end Catalog

end MethodSig
