import MethodSig.Proofs.Batch.Compiler

/-!
# What holds of every finished batch

Whatever the target, the context and the hook are, a batch that compiling returns consists of the
methods that the hook gave back. It is in canonical order, its unique names are distinct, and
every argument name has one type.
-/

namespace MethodSig

/-- What a finished batch owes to the methods that it was made from. -/
structure Finished (policy : DuplicatePolicy) (given batch : List Method) : Prop where
  /-- The batch holds the given methods with nothing but their unique names changed. -/
  perm : (batch.map Method.unnamed).Perm (given.map Method.unnamed)
  /-- The batch is in the order of its sort keys. -/
  inOrder : Method.InOrder batch
  /-- Every method has a unique name. -/
  named : ∀ m ∈ batch, m.uniqueName.isSome = true
  /-- No two methods share their unique name. -/
  uniqueNames_nodup : (batch.map Method.uniqueName).Nodup
  /-- Every argument name has one type. -/
  consistent : Consistent (batch.flatMap Method.arguments)
  /-- Where duplicates are refused, no two methods share a sort key. -/
  sortKeys_nodup : policy = .reject → (batch.map Method.sortKey).Nodup

namespace Method

theorem inOrder_assignUniqueNames {methods : List Method} (h : InOrder methods) :
    InOrder (assignUniqueNames methods) := by
  have hkeys : (assignUniqueNames methods).map sortKey = methods.map sortKey := by
    rw [← map_sortKey_map_unnamed, map_unnamed_assignUniqueNames, map_sortKey_map_unnamed]
  have hranks := congrArg (List.map SortKey.rank) hkeys
  rw [List.map_map, List.map_map] at hranks
  rw [inOrder_iff_pairwise_rank] at h ⊢
  exact hranks ▸ h

theorem uniqueName_isSome_of_mem {methods : List Method} {m : Method}
    (h : m ∈ assignUniqueNames methods) : m.uniqueName.isSome = true := by
  have hname := List.mem_map_of_mem (f := uniqueName) h
  rw [map_uniqueName_assignUniqueNames] at hname
  obtain ⟨name, -, hname⟩ := List.mem_map.mp hname
  rw [← hname]
  rfl

theorem nodup_uniqueName_assignUniqueNames (methods : List Method) :
    ((assignUniqueNames methods).map uniqueName).Nodup := by
  rw [map_uniqueName_assignUniqueNames]
  exact (UniqueName.nodup_assign _).map (Option.some_injective String)

end Method

namespace Compiler

/-- What finishing returns is a finished batch of the methods it is given. -/
theorem finished_of_returns_finish {c : Compiler} {methods batch : List Method}
    (h : (c.finish methods).Returns batch) : Finished c.policy methods batch := by
  obtain ⟨hconsistent, hkeys, rfl⟩ := (returns_finish_iff methods batch).mp h
  have hperm : ((Method.assignUniqueNames (Method.inOrder methods)).map Method.unnamed).Perm
      (methods.map Method.unnamed) := by
    rw [Method.map_unnamed_assignUniqueNames]
    exact (Method.perm_inOrder methods).map Method.unnamed
  refine ⟨hperm, ?_, ?_, ?_, ?_, ?_⟩
  · exact Method.inOrder_assignUniqueNames (Method.inOrder_inOrder methods)
  · exact fun m hm => Method.uniqueName_isSome_of_mem hm
  · exact Method.nodup_uniqueName_assignUniqueNames _
  · rw [← Method.flatMap_arguments_map_unnamed]
    apply hconsistent.of_subset
    intro a ha
    rw [← Method.flatMap_arguments_map_unnamed]
    exact (hperm.flatMap_right Method.arguments).subset ha
  · intro hreject
    have hperm := hperm.map Method.sortKey
    rw [Method.map_sortKey_map_unnamed, Method.map_sortKey_map_unnamed] at hperm
    exact hperm.nodup_iff.mpr (hkeys hreject)

/-- Finishing looks at no unique name that a method has already. -/
theorem returns_finish_congr {c : Compiler} {methods others batch : List Method}
    (h : methods.map Method.unnamed = others.map Method.unnamed) :
    (c.finish methods).Returns batch ↔ (c.finish others).Returns batch := by
  have hkeys : methods.map Method.sortKey = others.map Method.sortKey := by
    rw [← Method.map_sortKey_map_unnamed, h, Method.map_sortKey_map_unnamed]
  have harguments : methods.flatMap Method.arguments = others.flatMap Method.arguments := by
    rw [← Method.flatMap_arguments_map_unnamed, h, Method.flatMap_arguments_map_unnamed]
  have hnamed : Method.assignUniqueNames (Method.inOrder methods) =
      Method.assignUniqueNames (Method.inOrder others) := by
    rw [← Method.assignUniqueNames_map_unnamed, ← Method.inOrder_map_unnamed, h,
      Method.inOrder_map_unnamed, Method.assignUniqueNames_map_unnamed]
  rw [returns_finish_iff, returns_finish_iff, hkeys, harguments, hnamed]

/-- A batch that compiling returns is a finished batch of what the hook makes of the bound
methods, and a hook that differs only in the unique names it sets leads to the same batch. -/
theorem compile_finished (c : Compiler) (signatures : List String) (batch : List Method)
    (h : (c.compile signatures).Returns batch) :
    ∃ bound, List.Forall₂ (fun s m => (c.bindSignature s).Returns m) signatures bound ∧
      Finished c.policy (c.hook bound) batch ∧
      ∀ hook : Hook, (hook bound).map Method.unnamed = (c.hook bound).map Method.unnamed →
        ({ c with hook }.compile signatures).Returns batch := by
  obtain ⟨bound, hbound, hfinish⟩ := (returns_compile_iff signatures batch).mp h
  refine ⟨bound, hbound, finished_of_returns_finish hfinish, ?_⟩
  intro hook hhook
  refine (returns_compile_iff signatures batch).mpr ⟨bound, hbound, ?_⟩
  exact (returns_finish_congr hhook).mpr hfinish

/-- A hook that doubles every method and adds methods that are named like numbered ones. -/
def crowding : Hook :=
  fun methods => methods ++ methods ++
    methods.map fun m => { m with name := "wait_1", uniqueName := some "WAIT" }

/-- Methods that crowd around one base name are finished like any others. -/
theorem compile_finished_crowding :
    ∃ bound batch, ((ofRoot crowding .warn).compile ["void wait(long t)", "void wait()"]).Returns
      batch ∧ Finished .warn (crowding bound) batch := by
  obtain ⟨batch, hbatch⟩ := (Attempt.exists_returns_iff
    ((ofRoot crowding .warn).compile ["void wait(long t)", "void wait()"])).mpr (by decide +kernel)
  obtain ⟨bound, -, hfinished, -⟩ := compile_finished _ _ batch hbatch
  exact ⟨bound, batch, hbatch, hfinished⟩

end Compiler

end MethodSig
