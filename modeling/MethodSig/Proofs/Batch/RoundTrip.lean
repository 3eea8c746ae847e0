import MethodSig.Proofs.Batch.Finished
import MethodSig.Proofs.Catalog.QualifiedName
import MethodSig.Proofs.Text.Lines
import MethodSig.Proofs.Text.Utf8
import MethodSig.Signature.Listing

/-!
# Compiling a listing of a finished batch

A finished batch that is written out as a listing of signatures compiles to itself, provided that
the names of the catalog can stand in signatures.
-/

namespace MethodSig

open Attempt (Returns)

namespace Method

/-- The methods as signatures, each on a line of its own. -/
def listing (methods : List Method) : String :=
  String.join (methods.map fun m => m.render ++ "\n")

/-- The method as a signature, from its parts. -/
theorem render_eq_signatureText (m : Method) :
    m.render = String.ofList (Signature.signatureText m.resultType.name.toList m.name.toList
      (m.arguments.map fun a => (a.type.name.toList, a.name.toList))) := by
  have hrender : m.render =
      m.resultType.name ++ " " ++ m.name ++ "(" ++ m.renderArguments ++ ");" := rfl
  rw [hrender, ← String.toList_inj, String.toList_ofList]
  simp [renderArguments, Argument.render, Signature.signatureText, Signature.argumentText,
    Function.comp_def]

/-- A method whose parts can stand in a signature. -/
structure IsWritable (m : Method) : Prop where
  resultType : Signature.IsTypeText m.resultType.name.toList
  name : Signature.IsName m.name.toList
  arguments : ∀ a ∈ m.arguments.map fun a => (a.type.name.toList, a.name.toList),
    Signature.IsArgument a

namespace IsWritable

variable {m : Method}

theorem tokenize_render (h : m.IsWritable) :
    Signature.tokenize m.render =
      .ok ⟨m.render, m.resultType.name, m.name,
        m.arguments.map fun a => (a.type.name, a.name)⟩ := by
  rw [render_eq_signatureText,
    Signature.tokenize_signatureText h.resultType h.name h.arguments]
  simp [Function.comp_def]

theorem singleSpaced_render (h : m.IsWritable) : Text.SingleSpaced m.render.toList := by
  rw [render_eq_signatureText, String.toList_ofList]
  exact Signature.singleSpaced_signatureText h.resultType h.name h.arguments

theorem isLineBreak_eq_false (h : m.IsWritable) :
    ∀ c ∈ m.render.toList, Text.isLineBreak c = false := by
  intro c hc
  rw [render_eq_signatureText, String.toList_ofList] at hc
  rcases Signature.insideIdentifier_or_mem_of_mem_signatureText h.resultType h.name h.arguments
    c hc with hinside | hmem
  · by_contra hbreak
    rw [Bool.not_eq_false] at hbreak
    have hblank := Text.isBlank_of_isLineBreak hbreak
    rw [Signature.isBlank_eq_false_of_insideIdentifier hinside] at hblank
    contradiction
  · have hmarks : ".[] ,();".toList.all (!Text.isLineBreak ·) = true := by decide
    simpa using List.all_eq_true.mp hmarks c hmem

/-- A written method is no comment, for it begins with its result type. -/
theorem isComment_eq_false (h : m.IsWritable) : Signature.isComment m.render.toList = false := by
  obtain ⟨c, rest, htype⟩ := List.exists_cons_of_ne_nil h.resultType.ne_nil
  have hc := h.resultType.chars c (by simp [htype])
  have hsharp : '#' ≠ c := by
    rintro rfl
    revert hc
    decide
  have hslash : '/' ≠ c := by
    rintro rfl
    revert hc
    decide
  rw [render_eq_signatureText, String.toList_ofList, Signature.signatureText, htype]
  simp [Signature.isComment, List.isPrefixOf, hsharp, hslash]

end IsWritable

/-- A listing of methods that can be written is read back line by line. -/
theorem readListing_listing {methods : List Method} (h : ∀ m ∈ methods, m.IsWritable) :
    Signature.readListing (Text.Utf8.encode (listing methods)) =
      .ok (methods.map render) := by
  have htext : (listing methods).toList =
      (methods.map fun m => m.render.toList).flatMap (· ++ ['\n']) := by
    simp [listing, List.flatMap_map]
  have hlines : Text.lines (listing methods).toList = methods.map fun m => m.render.toList := by
    rw [htext]
    apply Text.lines_flatMap
    simpa using fun m hm => (h m hm).isLineBreak_eq_false
  have hstrip : (methods.map fun m => m.render.toList).map Text.strip =
      methods.map fun m => m.render.toList := by
    rw [List.map_map]
    apply List.map_congr_left
    intro m hm
    exact (h m hm).singleSpaced_render.strip_eq_self
  have hkeep : (methods.map fun m => m.render.toList).filter
      (fun line => !line.isEmpty && !Signature.isComment line) =
        methods.map fun m => m.render.toList := by
    refine List.filter_eq_self.mpr ?_
    intro line hline
    obtain ⟨m, hm, rfl⟩ := List.mem_map.mp hline
    have hne : m.render.toList.isEmpty = false :=
      List.isEmpty_eq_false_iff.mpr (h m hm).singleSpaced_render.ne_nil
    rw [hne, (h m hm).isComment_eq_false]
    rfl
  rw [Signature.readListing, Text.Utf8.decode_encode, Except.map, Signature.signaturesOf, hlines,
    hstrip, hkeep, List.map_map]
  simp [Function.comp_def]

end Method

namespace Compiler

variable {k : Catalog} {namespaceName : String} {target : Descriptor} {policy : DuplicatePolicy}

theorem unnamed_eq_self_of_returns_bindSignature {c : Compiler} {signature : String} {m : Method}
    (h : (c.bindSignature signature).Returns m) : m.unnamed = m := by
  obtain ⟨tokens, -, hbuild⟩ := (returns_bindSignature_iff signature m).mp h
  obtain ⟨-, -, -, -, hunnamed⟩ := (Context.returns_build_iff c.target tokens m).mp hbuild
  rw [Method.unnamed, ← hunnamed]

/-- A method that was bound in a catalog can be written, and what is written is bound to the same
method again. -/
theorem returns_bindSignature_render (hnames : k.NamesAreQualified) {signature : String}
    {m : Method}
    (h : ((ofCatalog k namespaceName target policy).bindSignature signature).Returns m.unnamed) :
    m.IsWritable ∧
      ((ofCatalog k namespaceName target policy).bindSignature m.render).Returns m.unnamed := by
  obtain ⟨tokens, htokens, hbuild⟩ := (returns_bindSignature_iff signature _).mp h
  obtain ⟨hname, hresult, harguments, hmember, hunnamed⟩ :=
    (Context.returns_build_iff target tokens _).mp hbuild
  obtain ⟨hmethodName, hargumentNames⟩ := Signature.isName_of_tokenize htokens
  have hresultType := Catalog.isCanonical_of_resolveChars hresult
  have hargument : ∀ a ∈ m.arguments, k.IsCanonical a.type ∧ Signature.IsName a.name.toList := by
    intro a ha
    obtain ⟨token, htoken, hbuilt⟩ := Attempt.exists_returns_of_mem harguments ha
    obtain ⟨htype, hname⟩ := (Context.returns_buildArgument_iff token a).mp hbuilt
    exact ⟨Catalog.isCanonical_of_resolveChars htype, hname ▸ hargumentNames token htoken⟩
  have hwritable : m.IsWritable := by
    refine ⟨hresultType.isTypeText_name hnames, ?_, ?_⟩
    · rw [← hname] at hmethodName
      exact hmethodName
    · intro a ha
      obtain ⟨b, hb, rfl⟩ := List.mem_map.mp ha
      obtain ⟨htype, hbname⟩ := hargument b hb
      exact ⟨htype.isTypeText_name hnames, hbname⟩
  refine ⟨hwritable, ?_⟩
  refine (returns_bindSignature_iff m.render _).mpr ⟨_, hwritable.tokenize_render, ?_⟩
  refine (Context.returns_build_iff target _ _).mpr ⟨rfl, ?_, ?_, hmember, hunnamed⟩
  · exact hresultType.resolve?_name hnames.namesAreBases
  · refine List.forall₂_map_left_iff.mpr (List.forall₂_same.mpr ?_)
    intro a ha
    refine (Context.returns_buildArgument_iff _ a).mpr ⟨?_, rfl⟩
    exact (hargument a ha).1.resolve?_name hnames.namesAreBases

/-- A finished batch is finished again from its own methods. -/
theorem returns_finish_map_unnamed {c : Compiler} {bound batch : List Method}
    (h : (c.finish bound).Returns batch) : (c.finish (batch.map Method.unnamed)).Returns batch := by
  obtain ⟨hconsistent, hkeys, hbatch⟩ := (returns_finish_iff bound batch).mp h
  have hunnamed : batch.map Method.unnamed = (Method.inOrder bound).map Method.unnamed := by
    rw [hbatch, Method.map_unnamed_assignUniqueNames]
  have hfinish : (c.finish (Method.inOrder bound)).Returns batch := by
    have hperm := Method.perm_inOrder bound
    refine (returns_finish_iff _ batch).mpr ⟨?_, ?_, ?_⟩
    · exact hconsistent.of_subset (hperm.flatMap_right Method.arguments).subset
    · intro hreject
      exact (hperm.map Method.sortKey).nodup_iff.mpr (hkeys hreject)
    · rw [Method.inOrder_eq_self (Method.inOrder_inOrder bound)]
      exact hbatch
  refine (returns_finish_congr ?_).mpr hfinish
  rw [hunnamed, List.map_map]
  rfl

/-- A compiled batch that is written out as a listing is read back and compiles to itself. -/
theorem compile_listing (hnames : k.NamesAreQualified) {signatures : List String}
    {batch : List Method}
    (h : ((ofCatalog k namespaceName target policy).compile signatures).Returns batch) :
    ∃ listed, Signature.readListing (Text.Utf8.encode (Method.listing batch)) = .ok listed ∧
      ((ofCatalog k namespaceName target policy).compile listed).Returns batch := by
  obtain ⟨bound, hbound, hfinish⟩ := (returns_compile_iff signatures batch).mp h
  -- each method of the batch was bound, so it can be written and is bound again without its name
  have hagain : ∀ m ∈ batch, m.IsWritable ∧
      ((ofCatalog k namespaceName target policy).bindSignature m.render).Returns m.unnamed := by
    intro m hm
    have hmem := (finished_of_returns_finish hfinish).perm.subset (List.mem_map_of_mem hm)
    obtain ⟨b, hb, hbm⟩ := List.mem_map.mp hmem
    obtain ⟨signature, -, hsignature⟩ := Attempt.exists_returns_of_mem hbound hb
    rw [unnamed_eq_self_of_returns_bindSignature hsignature] at hbm
    exact returns_bindSignature_render hnames (hbm ▸ hsignature)
  refine ⟨batch.map Method.render, ?_, ?_⟩
  · exact Method.readListing_listing fun m hm => (hagain m hm).1
  · refine (returns_compile_iff _ batch).mpr
      ⟨batch.map Method.unnamed, ?_, returns_finish_map_unnamed hfinish⟩
    rw [List.forall₂_map_left_iff, List.forall₂_map_right_iff]
    exact List.forall₂_same.mpr fun m hm => (hagain m hm).2

/-- A listing in which two methods share their name compiles to itself. -/
theorem compile_listing_wait :
    ∃ batch listed, ((ofRoot id .warn).compile
        ["boolean equals(java.lang.Object o)", "void wait(long t)", "void wait()"]).Returns batch ∧
      Signature.readListing (Text.Utf8.encode (Method.listing batch)) = .ok listed ∧
      ((ofRoot id .warn).compile listed).Returns batch := by
  obtain ⟨batch, hbatch⟩ := (Attempt.exists_returns_iff ((ofRoot id .warn).compile
    ["boolean equals(java.lang.Object o)", "void wait(long t)", "void wait()"])).mpr
      (by decide +kernel)
  obtain ⟨listed, hlisted, hagain⟩ := compile_listing Catalog.namesAreQualified_core hbatch
  exact ⟨batch, listed, hbatch, hlisted, hagain⟩

end Compiler

end MethodSig
