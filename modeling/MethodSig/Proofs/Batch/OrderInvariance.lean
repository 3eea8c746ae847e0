import Mathlib.Data.List.Perm.Basic
import MethodSig.Proofs.Batch.Compiler

/-!
# The order of signatures does not matter

Without a hook, compiling the same signatures in another order succeeds in the same cases. The two
batches agree at every place except, perhaps, in the result types of methods whose sort keys are
equal.
-/

namespace MethodSig

/-- Two methods agree in everything but, perhaps, their result types. -/
structure Method.AgreeButResult (m n : Method) : Prop where
  name : m.name = n.name
  arguments : m.arguments = n.arguments
  member : m.member = n.member
  uniqueName : m.uniqueName = n.uniqueName

theorem Argument.eq_of_name_eq_of_type_eq {a b : Argument} (hname : a.name = b.name)
    (htype : a.type = b.type) : a = b := by
  obtain ⟨name, type, _⟩ := a
  obtain ⟨name', type', _⟩ := b
  obtain rfl : name = name' := hname
  obtain rfl : type = type' := htype
  rfl

/-- Consistent arguments of the same names are the same arguments. -/
theorem Consistent.eq_of_map_name_eq {all arguments others : List Argument} (h : Consistent all)
    (harguments : ∀ a ∈ arguments, a ∈ all) (hothers : ∀ a ∈ others, a ∈ all)
    (hnames : arguments.map Argument.name = others.map Argument.name) : arguments = others := by
  have hlength : arguments.length = others.length := by
    simpa using congrArg List.length hnames
  apply List.ext_getElem hlength
  intro i hi hi'
  have hname : arguments[i].name = others[i].name := by
    simpa [hi, hi'] using congrArg (·[i]?) hnames
  have htype := h _ (harguments _ (List.getElem_mem hi)) _ (hothers _ (List.getElem_mem hi')) hname
  exact Argument.eq_of_name_eq_of_type_eq hname htype

namespace Compiler

variable {c : Compiler}

/-- The method has no unique name yet, and its member is the one that the context finds for its
name and its argument types. -/
def IsBound (c : Compiler) (m : Method) : Prop :=
  (c.context.bind c.target m.name m.argumentTypes).value = some m.member ∧ m.uniqueName = none

theorem isBound_of_returns_bindSignature {signature : String} {m : Method}
    (h : (c.bindSignature signature).Returns m) : c.IsBound m := by
  obtain ⟨tokens, -, hbuild⟩ := (returns_bindSignature_iff signature m).mp h
  exact ((Context.returns_build_iff c.target tokens m).mp hbuild).2.2.2

theorem isBound_of_mem {signatures : List String} {bound : List Method}
    (h : List.Forall₂ (fun s m => (c.bindSignature s).Returns m) signatures bound)
    {m : Method} (hm : m ∈ bound) : c.IsBound m := by
  obtain ⟨signature, -, hsignature⟩ := Attempt.exists_returns_of_mem h hm
  exact isBound_of_returns_bindSignature hsignature

/-- Bound methods of consistent arguments that share a sort key agree but for their results. -/
theorem agreeButResult_of_sortKey_eq {bound : List Method} {m n : Method}
    (hbound : ∀ m ∈ bound, c.IsBound m)
    (hconsistent : Consistent (bound.flatMap Method.arguments))
    (hm : m ∈ bound) (hn : n ∈ bound) (hkey : m.sortKey = n.sortKey) :
    m.AgreeButResult n := by
  have hname : m.name = n.name := congrArg SortKey.name hkey
  have harguments : m.arguments = n.arguments := by
    refine hconsistent.eq_of_map_name_eq ?_ ?_ (congrArg SortKey.argumentNames hkey)
    · exact fun a ha => List.mem_flatMap.mpr ⟨m, hm, ha⟩
    · exact fun a ha => List.mem_flatMap.mpr ⟨n, hn, ha⟩
  obtain ⟨hmbind, hmnone⟩ := hbound m hm
  obtain ⟨hnbind, hnnone⟩ := hbound n hn
  refine ⟨hname, harguments, ?_, hmnone.trans hnnone.symm⟩
  rw [Method.argumentTypes, harguments, hname] at hmbind
  rw [Method.argumentTypes, hmbind] at hnbind
  exact Option.some.inj hnbind

end Compiler

namespace Method

/-- Lists of methods whose keys agree place by place get the same unique names. -/
theorem uniqueName_assignUniqueNames_congr {ordered others : List Method}
    (hkeys : ordered.map sortKey = others.map sortKey) :
    UniqueName.assign (ordered.map baseName) = UniqueName.assign (others.map baseName) := by
  have hnames := congrArg (List.map fun k : SortKey => Text.upper k.name) hkeys
  rw [List.map_map, List.map_map] at hnames
  exact congrArg UniqueName.assign hnames

/-- Where two orders of the same methods put methods of different result types at one place, the
sort key at that place is shared with another place. -/
theorem exists_sortKey_eq_of_resultType_ne {ordered others : List Method}
    (hperm : ordered.Perm others) (hkeys : ordered.map sortKey = others.map sortKey)
    {i : ℕ} (hi : i < ordered.length) (hi' : i < others.length)
    (hresult : ordered[i].resultType ≠ others[i].resultType) :
    ∃ j, ∃ hj : j < ordered.length, j ≠ i ∧ ordered[j].sortKey = ordered[i].sortKey := by
  obtain ⟨j, hj, heq⟩ := List.getElem_of_mem (hperm.mem_iff.mpr (List.getElem_mem hi'))
  have hkey : ordered[i].sortKey = others[i].sortKey := by
    simpa [hi, hi'] using congrArg (·[i]?) hkeys
  refine ⟨j, hj, ?_, ?_⟩
  · rintro rfl
    exact hresult (by rw [heq])
  · rw [heq, hkey]

end Method

namespace Compiler

variable {c : Compiler} {bound others batch other : List Method}

/-- Bound methods can be finished in any order or in none. -/
theorem exists_returns_finish_of_perm (hperm : bound.Perm others)
    (h : ∃ batch, (c.finish bound).Returns batch) : ∃ batch, (c.finish others).Returns batch := by
  obtain ⟨batch, hbatch⟩ := h
  obtain ⟨hconsistent, hkeys, -⟩ := (returns_finish_iff bound batch).mp hbatch
  refine ⟨_, (returns_finish_iff others _).mpr ⟨?_, ?_, rfl⟩⟩
  · exact hconsistent.of_subset fun a ha =>
      (hperm.flatMap_right Method.arguments).mem_iff.mpr ha
  · intro hreject
    exact (hperm.map Method.sortKey).nodup_iff.mp (hkeys hreject)

/-- Bound methods that are finished in two orders agree place by place but for result types. -/
theorem agreeButResult_of_returns_finish
    (hbound : ∀ m ∈ bound, c.IsBound m)
    (hperm : bound.Perm others) (hbatch : (c.finish bound).Returns batch)
    (hother : (c.finish others).Returns other) :
    List.Forall₂ Method.AgreeButResult batch other ∧
      ∀ i (hi : i < batch.length) (hi' : i < other.length),
        batch[i].resultType ≠ other[i].resultType →
          ∃ j, ∃ hj : j < batch.length, j ≠ i ∧ batch[j].sortKey = batch[i].sortKey := by
  obtain ⟨hconsistent, -, rfl⟩ := (returns_finish_iff bound batch).mp hbatch
  obtain ⟨-, -, rfl⟩ := (returns_finish_iff others other).mp hother
  have hkeys := Method.map_sortKey_inOrder_congr (hperm.map Method.sortKey)
  have hordered : (Method.inOrder bound).Perm (Method.inOrder others) :=
    (Method.perm_inOrder bound).trans (hperm.trans (Method.perm_inOrder others).symm)
  have hnames := Method.uniqueName_assignUniqueNames_congr hkeys
  constructor
  · rw [List.forall₂_iff_get]
    refine ⟨by simpa using hordered.length_eq, ?_⟩
    intro i hi hi'
    rw [Method.length_assignUniqueNames] at hi hi'
    have hkey : (Method.inOrder bound)[i].sortKey = (Method.inOrder others)[i].sortKey := by
      simpa [hi, hi'] using congrArg (·[i]?) hkeys
    have hagree := agreeButResult_of_sortKey_eq hbound hconsistent
      ((Method.perm_inOrder bound).mem_iff.mp (List.getElem_mem hi))
      ((hperm.trans (Method.perm_inOrder others).symm).mem_iff.mpr (List.getElem_mem hi')) hkey
    simp only [List.get_eq_getElem, Method.getElem_assignUniqueNames]
    refine ⟨hagree.name, hagree.arguments, hagree.member, ?_⟩
    simp only [hnames]
  · intro i hi hi' hresult
    simp only [Method.length_assignUniqueNames] at hi hi' ⊢
    simp only [Method.getElem_assignUniqueNames] at hresult ⊢
    exact Method.exists_sortKey_eq_of_resultType_ne hordered hkeys hi hi' hresult

/-- Batches that agree but for result types are equal if no two methods share a sort key. -/
theorem eq_of_agreeButResult (hagree : List.Forall₂ Method.AgreeButResult batch other)
    (hresults : ∀ i (hi : i < batch.length) (hi' : i < other.length),
      batch[i].resultType ≠ other[i].resultType →
        ∃ j, ∃ hj : j < batch.length, j ≠ i ∧ batch[j].sortKey = batch[i].sortKey)
    (hkeys : (batch.map Method.sortKey).Nodup) : batch = other := by
  apply List.ext_getElem hagree.length_eq
  intro i hi hi'
  obtain ⟨hname, harguments, hmember, huniqueName⟩ := hagree.get hi hi'
  have hresult : batch[i].resultType = other[i].resultType := by
    by_contra hne
    obtain ⟨j, hj, hji, hkey⟩ := hresults i hi hi' hne
    apply hji
    have hlength : (batch.map Method.sortKey).length = batch.length := List.length_map _
    rw [← hlength] at hj hi
    have hkey' : (batch.map Method.sortKey)[j] = (batch.map Method.sortKey)[i] := by
      simpa using hkey
    exact hkeys.getElem_inj_iff.mp hkey'
  simp only [List.get_eq_getElem] at hname harguments hmember huniqueName
  calc
    batch[i] = ⟨batch[i].name, batch[i].resultType, batch[i].arguments, batch[i].member,
        batch[i].uniqueName⟩ := rfl
    _ = other[i] := by rw [hname, hresult, harguments, hmember, huniqueName]

/-- Compiling signatures in another order succeeds in the same cases. The batches agree place by
place but for result types, which can differ only where sort keys are shared. -/
theorem compile_perm (target : Descriptor) (context : Context) (policy : DuplicatePolicy)
    {signatures permuted : List String} (h : signatures.Perm permuted) :
    let c : Compiler := ⟨target, context, id, policy⟩
    ((∃ batch, (c.compile signatures).Returns batch) ↔
      ∃ batch, (c.compile permuted).Returns batch) ∧
    ∀ batch other, (c.compile signatures).Returns batch → (c.compile permuted).Returns other →
      List.Forall₂ Method.AgreeButResult batch other ∧
      (∀ i (hi : i < batch.length) (hi' : i < other.length),
        batch[i].resultType ≠ other[i].resultType →
          ∃ j, ∃ hj : j < batch.length, j ≠ i ∧ batch[j].sortKey = batch[i].sortKey) ∧
      ((batch.map Method.sortKey).Nodup → batch = other) := by
  intro c
  have hsucceeds {s p : List String} (hperm : s.Perm p)
      (hs : ∃ batch, (c.compile s).Returns batch) : ∃ batch, (c.compile p).Returns batch := by
    obtain ⟨batch, hbatch⟩ := hs
    obtain ⟨bound, hbound, hfinish⟩ := (returns_compile_iff s batch).mp hbatch
    obtain ⟨others, hothers, hothersPerm⟩ := List.perm_comp_forall₂ hperm.symm hbound
    obtain ⟨other, hother⟩ := exists_returns_finish_of_perm hothersPerm.symm ⟨batch, hfinish⟩
    exact ⟨other, (returns_compile_iff p other).mpr ⟨others, hothers, hother⟩⟩
  refine ⟨⟨hsucceeds h, hsucceeds h.symm⟩, ?_⟩
  intro batch other hbatch hother
  obtain ⟨bound, hbound, hfinish⟩ := (returns_compile_iff signatures batch).mp hbatch
  obtain ⟨others, hothers, hfinish'⟩ := (returns_compile_iff permuted other).mp hother
  have hperm : bound.Perm others := by
    obtain ⟨others', hothers', hperm⟩ := List.perm_comp_forall₂ h.symm hbound
    have hunique : Relator.RightUnique fun s m => (c.bindSignature s).Returns m :=
      fun _ _ _ hm hn => hm.unique hn
    rw [List.right_unique_forall₂' hunique hothers hothers']
    exact hperm.symm
  obtain ⟨hagree, hresults⟩ := agreeButResult_of_returns_finish
    (fun m hm => isBound_of_mem hbound hm) hperm hfinish hfinish'
  exact ⟨hagree, hresults, eq_of_agreeButResult hagree hresults⟩

/-- Two signatures that differ only in their result types may come in either order. -/
theorem compile_perm_wait :
    ∃ batch other, ((ofRoot id .warn).compile ["void wait()", "int wait()"]).Returns batch ∧
      ((ofRoot id .warn).compile ["int wait()", "void wait()"]).Returns other ∧
      List.Forall₂ Method.AgreeButResult batch other := by
  have hswap : ["void wait()", "int wait()"].Perm ["int wait()", "void wait()"] :=
    List.Perm.swap _ _ _
  have h := compile_perm (.named objectType) (Catalog.core.context "java.lang") .warn hswap
  obtain ⟨batch, hbatch⟩ := (Attempt.exists_returns_iff
    ((ofRoot id .warn).compile ["void wait()", "int wait()"])).mpr (by decide +kernel)
  obtain ⟨other, hother⟩ := h.1.mp ⟨batch, hbatch⟩
  exact ⟨batch, other, hbatch, hother, (h.2 batch other hbatch hother).1⟩

end Compiler

end MethodSig
