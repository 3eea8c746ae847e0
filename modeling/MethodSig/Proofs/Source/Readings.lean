import MethodSig.Proofs.Source.Comments
import MethodSig.Source.Survey

/-!
# What a survey reads of a syntax tree

A survey takes texts from some nodes of a tree only. What it makes of these nodes stays the same as
long as comments are placed elsewhere, or among the type arguments of a type that is read.
-/

namespace MethodSig.Source

open Text

/-! ## Results that agree -/

section

variable {ε α β : Type}

theorem toOption_bind_congr {x x' : Except ε α} {f f' : α → Except ε β}
    (h : x.toOption = x'.toOption) (hf : ∀ a, (f a).toOption = (f' a).toOption) :
    (x >>= f).toOption = (x' >>= f').toOption := by
  cases x with
  | error e =>
      cases x' with
      | error e' => rfl
      | ok a' => contradiction
  | ok a =>
      cases x' with
      | error e' => contradiction
      | ok a' =>
          have ha : a = a' := Option.some.inj h
          exact ha ▸ hf a

variable {R : Node → Node → Prop} {ns ns' : List Node}

/-- What comes of related nodes agrees if nothing comes of comments. -/
theorem toOption_filterMapM_eq (h : Among R ns ns') {f f' : Node → Except ε (Option β)}
    (hf : ∀ n ∈ ns, ∀ n' ∈ ns', R n n' → (f n).toOption = (f' n').toOption)
    (hc : ∀ c ∈ ns', c.IsComment → f' c = .ok none) :
    (ns.filterMapM f).toOption = (ns'.filterMapM f').toOption := by
  induction h with
  | nil => rfl
  | part hn _ ih =>
      rw [List.forall_mem_cons] at hc
      rw [List.filterMapM_cons, List.filterMapM_cons]
      refine toOption_bind_congr (hf _ List.mem_cons_self _ List.mem_cons_self hn) ?_
      have hrest := ih (fun n hn n' hn' =>
        hf n (List.mem_cons_of_mem _ hn) n' (List.mem_cons_of_mem _ hn')) hc.2
      intro found
      cases found with
      | none => exact hrest
      | some b => exact toOption_bind_congr hrest fun _ => rfl
  | comment hcomment _ ih =>
      rw [List.forall_mem_cons] at hc
      rw [List.filterMapM_cons, hc.1 hcomment]
      exact ih (fun n hn n' hn' => hf n hn n' (List.mem_cons_of_mem _ hn')) hc.2

theorem toOption_mapM_eq (h : Among R ns ns') {f f' : Node → Except ε β}
    (hf : ∀ n ∈ ns, ∀ n' ∈ ns', R n n' → (f n).toOption = (f' n').toOption)
    (hc : ∀ n' ∈ ns', ¬ n'.IsComment) :
    (ns.mapM f).toOption = (ns'.mapM f').toOption := by
  induction h with
  | nil => rfl
  | part hn _ ih =>
      rw [List.forall_mem_cons] at hc
      rw [List.mapM_cons, List.mapM_cons]
      refine toOption_bind_congr (hf _ List.mem_cons_self _ List.mem_cons_self hn) ?_
      have hrest := ih (fun n hn n' hn' =>
        hf n (List.mem_cons_of_mem _ hn) n' (List.mem_cons_of_mem _ hn')) hc.2
      intro b
      exact toOption_bind_congr hrest fun _ => rfl
  | comment hcomment _ _ => exact absurd hcomment (hc _ List.mem_cons_self)

end

/-! ## The nodes that are read -/

/-- A node that a survey takes a text from: the whole text or the text of a type. -/
inductive Reading where
  | whole (n : Node)
  | type (n : Node)

/-- Comments do not show in what is read. -/
def Reading.IsClear (source : List UInt8) : Reading → Prop
  | whole n => Uncommented n
  | type n => Enclosed source n

namespace Node

def packageName? (root : Node) : Option Node :=
  ((root.childrenOf "package_declaration").flatMap children).find? isName

def importNames (root : Node) : List Node :=
  (root.childrenOf "import_declaration").filterMap importName?

def supertypeNodes (n : Node) : List Node :=
  (n.children.filter isSupertypeClause).flatMap listedTypes

def parameterReadings (n : Node) : List Reading :=
  if n.type = "formal_parameter" then
    match n.field? "type" with
    | none => []
    | some type => .type type :: (n.field? "dimensions").toList.map .whole
  else if n.type = "spread_parameter" then
    (n.namedChildren.find? (!isBesideType ·)).toList.map .type
  else []

def methodReadings (n : Node) : List Reading :=
  match n.field? "name", n.field? "type" with
  | some name, some type =>
    .whole name :: .type type ::
      (n.field? "parameters").toList.flatMap (·.namedChildren.flatMap parameterReadings)
  | _, _ => []

def memberReadings : List Node → List Reading
  | [] => []
  | n :: rest =>
    have := n.sizeOf_children_lt
    let here :=
      if n.type = "enum_body_declarations" then memberReadings n.children
      else if n.type = "method_declaration" then n.methodReadings
      else []
    here ++ memberReadings rest
termination_by members => sizeOf members
decreasing_by
  all_goals simp only [List.cons.sizeOf_spec]; omega

/-- What is read of the types among some nodes, and of what these types hold. -/
def typeReadings : List Node → List Reading
  | [] => []
  | n :: rest =>
    have := n.sizeOf_children_lt
    let here :=
      if typeDeclarations.contains n.type then
        match n.field? "name" with
        | none => []
        | some name =>
          .whole name :: n.supertypeNodes.map .type ++
            match h : n.field? "body" with
            | none => []
            | some body =>
              have := Node.sizeOf_field?_lt h
              have := body.sizeOf_children_lt
              memberReadings body.children ++ typeReadings body.children
      else if typeBodies.contains n.type then typeReadings n.children
      else []
    here ++ typeReadings rest
termination_by nodes => sizeOf nodes
decreasing_by
  all_goals simp only [List.cons.sizeOf_spec]; omega

/-- The nodes of a compilation unit that are read. -/
def readings (root : Node) : List Reading :=
  root.packageName?.toList.map .whole ++ root.importNames.map .whole ++ typeReadings root.children

end Node

/-! ## What is read of a commented tree -/

section

variable {source source' : List UInt8} {n n' : Node}

namespace Commented

theorem field? (h : Commented source source' n n') (name : String) :
    Option.Rel (Commented source source') (n.field? name) (n'.field? name) := by
  refine h.among.find? ?_ ?_
  · intro m m' hm
    rw [hm.field]
  · intro m hm hcomment
    have hfield := List.find?_some hm
    rw [decide_eq_true_eq, hcomment.field] at hfield
    contradiction

theorem childrenOf (h : Commented source source' n n') (type : String) :
    Among (Commented source source') (n.childrenOf type) (n'.childrenOf type) := by
  refine h.among.filter ?_
  intro m m' hm
  rw [hm.type]

theorem namedChildren (h : Commented source source' n n') :
    Among (Commented source source') n.namedChildren n'.namedChildren :=
  h.among.filter fun _ _ hm => hm.named

theorem isName_eq (h : Commented source source' n n') : n'.isName = n.isName := by
  rw [Node.isName, Node.isName, h.type]

end Commented

theorem Node.IsComment.isName_eq_false {c : Node} (hc : c.IsComment) : c.isName = false := by
  have hscoped := hc.type_ne "scoped_identifier" (by decide) (by decide)
  have hsimple := hc.type_ne "identifier" (by decide) (by decide)
  simp [Node.isName, hscoped, hsimple]

namespace Commented

theorem find?_isName {ns ns' : List Node} (h : Among (Commented source source') ns ns') :
    Option.Rel (Commented source source') (ns.find? Node.isName) (ns'.find? Node.isName) := by
  refine h.find? (fun _ _ hn => hn.isName_eq) ?_
  intro m hm hcomment
  rw [List.find?_eq_some_iff_append, hcomment.isName_eq_false] at hm
  exact absurd hm.1 (by decide)

theorem not_isComment_of_mem_childrenOf {c : Node} {type : String} (hline : type ≠ "line_comment")
    (hblock : type ≠ "block_comment") (hc : c ∈ n.childrenOf type) : ¬ c.IsComment := by
  intro hcomment
  have htype := (List.mem_filter.mp hc).2
  exact absurd (of_decide_eq_true htype) (hcomment.type_ne type hline hblock)

theorem packageName? (h : Commented source source' n n') :
    Option.Rel (Commented source source') n.packageName? n'.packageName? := by
  refine find?_isName ((h.childrenOf "package_declaration").flatMap (fun _ _ hn => hn.among) ?_)
  intro c hc hcomment
  exact absurd hcomment (not_isComment_of_mem_childrenOf (by decide) (by decide) hc)

theorem package_eq (h : Commented source source' n n')
    (hclear : ∀ name ∈ n'.packageName?, Uncommented name) :
    n.package source = n'.package source' := by
  have hpackage (source : List UInt8) (n : Node) :
      n.package source = n.packageName?.elim (.ok "") (Node.text source) := by
    rw [Node.package, Node.packageName?]
    split
    next h => rw [h, Option.elim_some]
    next h => rw [h, Option.elim_none]
  rw [hpackage, hpackage]
  rcases none_or_exists_of_rel h.packageName? with ⟨hn, hn'⟩ | ⟨name, name', hn, hn', hname⟩
  · rw [hn, hn', Option.elim_none, Option.elim_none]
  · rw [hn, hn', Option.elim_some, Option.elim_some]
    exact text_eq_of_uncommented hname (hclear name' hn')

theorem any_type_eq (h : Commented source source' n n') (type : String)
    (hline : type ≠ "line_comment") (hblock : type ≠ "block_comment") :
    n'.children.any (·.type = type) = n.children.any (·.type = type) := by
  refine h.among.any_eq ?_ ?_
  · intro m m' hm
    rw [hm.type]
  · intro c hc
    exact decide_eq_false (hc.type_ne type hline hblock)

theorem importName? (h : Commented source source' n n') :
    Option.Rel (Commented source source') (Node.importName? n) (Node.importName? n') := by
  rw [Node.importName?, Node.importName?, h.any_type_eq "static" (by decide) (by decide)]
  split
  · exact .none
  · exact find?_isName h.among

theorem toOption_imports_eq (h : Commented source source' n n')
    (hclear : ∀ name ∈ n'.importNames, Uncommented name) :
    (n.imports source).toOption = (n'.imports source').toOption := by
  refine toOption_filterMapM_eq (h.childrenOf "import_declaration") ?_ ?_
  · intro m _ m' hm' hm
    rcases none_or_exists_of_rel hm.importName? with ⟨hn, hn'⟩ | ⟨name, name', hn, hn', hname⟩
    · rw [hn, hn']
    · have htext : name.text source = name'.text source' :=
        text_eq_of_uncommented hname (hclear name' (List.mem_filterMap.mpr ⟨m', hm', hn'⟩))
      simp only [hn, hn', Node.importText, htext, hm.any_type_eq "asterisk" (by decide) (by decide)]
  · intro c hc hcomment
    exact absurd hcomment (not_isComment_of_mem_childrenOf (by decide) (by decide) hc)

theorem listedTypes (h : Commented source source' n n') :
    Among (Commented source source') (Node.listedTypes n) (Node.listedTypes n') := by
  refine h.among.flatMap ?_ ?_
  · intro m m' hm
    rw [hm.type, hm.named]
    split
    · exact hm.namedChildren
    · split
      · exact .part hm .nil
      · exact .nil
  · intro c _ hc m hm
    rw [if_neg (hc.type_ne "type_list" (by decide) (by decide)), if_pos hc.named,
      List.mem_singleton] at hm
    exact hm ▸ hc

theorem supertypeNodes (h : Commented source source' n n') :
    Among (Commented source source') n.supertypeNodes n'.supertypeNodes := by
  have hclause (m m' : Node) (hm : Commented source source' m m') :
      m'.isSupertypeClause = m.isSupertypeClause := by
    rw [Node.isSupertypeClause, Node.isSupertypeClause, hm.type]
  refine (h.among.filter hclause).flatMap (fun _ _ hm => hm.listedTypes) ?_
  intro c hc hcomment
  have hnot : c.isSupertypeClause = false :=
    hcomment.contains_type_eq_false _ (by decide) (by decide)
  rw [List.mem_filter, hnot] at hc
  exact absurd hc.2 (by decide)

theorem toOption_supertypes_eq (h : Commented source source' n n')
    (hn : ∀ m ∈ n.supertypeNodes, Enclosed source m)
    (hn' : ∀ m ∈ n'.supertypeNodes, Enclosed source' m) :
    (n.supertypes source).toOption = (n'.supertypes source').toOption := by
  refine toOption_mapM_eq h.supertypeNodes ?_ (fun m hm => (hn' m hm).not_isComment)
  intro m hm m' hm' hrel
  exact toOption_typeText_eq hrel (hn m hm) (hn' m' hm')

/-! ### Methods -/

theorem modifierTexts_eq (h : Commented source source' n n') :
    n'.modifierTexts = n.modifierTexts := by
  have hnodes : Among (Commented source source')
      ((n.childrenOf "modifiers").flatMap Node.children)
      ((n'.childrenOf "modifiers").flatMap Node.children) := by
    refine (h.childrenOf "modifiers").flatMap (fun _ _ hm => hm.among) ?_
    intro c hc hcomment
    exact absurd hcomment (not_isComment_of_mem_childrenOf (by decide) (by decide) hc)
  exact hnodes.filter_map_type_eq (fun _ _ hm => hm.type) fun c hc =>
    hc.contains_type_eq_false _ (by decide) (by decide)

theorem dimensionsText_eq (h : Commented source source' n n')
    (hclear : ∀ m ∈ n'.field? "dimensions", Uncommented m) :
    n.dimensionsText source = n'.dimensionsText source' := by
  rw [Node.dimensionsText, Node.dimensionsText]
  rcases none_or_exists_of_rel (h.field? "dimensions") with ⟨hn, hn'⟩ | ⟨m, m', hn, hn', hm⟩
  · rw [hn, hn']
  · rw [hn, hn']
    dsimp only
    rw [text_eq_of_uncommented hm (hclear m' hn')]

theorem toOption_parameterText_eq (h : Commented source source' n n')
    (hn : ∀ r ∈ n.parameterReadings, r.IsClear source)
    (hn' : ∀ r ∈ n'.parameterReadings, r.IsClear source') :
    (n.parameterText? source).toOption = (n'.parameterText? source').toOption := by
  unfold Node.parameterReadings at hn hn'
  unfold Node.parameterText?
  rw [h.type] at hn' ⊢
  split
  next hformal =>
    rw [if_pos hformal] at hn hn'
    rcases none_or_exists_of_rel (h.field? "type") with ⟨hm, hm'⟩ | ⟨m, m', hm, hm', hrel⟩
    · rw [hm, hm']
    · rw [hm] at hn ⊢
      rw [hm'] at hn' ⊢
      rw [List.forall_mem_cons] at hn hn'
      refine toOption_bind_congr (toOption_typeText_eq hrel hn.1 hn'.1) ?_
      intro text
      refine toOption_bind_congr (congrArg Except.toOption (h.dimensionsText_eq ?_)) fun _ => rfl
      intro d hd
      exact hn'.2 (.whole d) (List.mem_map_of_mem (Option.mem_toList.mpr hd))
  next hformal =>
    rw [if_neg hformal] at hn hn'
    split
    next hspread =>
      rw [if_pos hspread] at hn hn'
      have hbeside (m m' : Node) (hm : Commented source source' m m') :
          (!m'.isBesideType) = !m.isBesideType := by
        rw [Node.isBesideType, Node.isBesideType, hm.type]
      have hfind := h.namedChildren.find? hbeside (by
        intro m hm
        exact (hn' (.type m) (by simp [hm])).not_isComment)
      rcases none_or_exists_of_rel hfind with ⟨hm, hm'⟩ | ⟨m, m', hm, hm', hrel⟩
      · rw [hm, hm']
      · rw [hm] at hn ⊢
        rw [hm'] at hn' ⊢
        refine toOption_bind_congr (toOption_typeText_eq hrel ?_ ?_) fun _ => rfl
        · exact hn (.type m) (by simp)
        · exact hn' (.type m') (by simp)
    next => rfl

theorem toOption_parameterTexts_eq (h : Commented source source' n n')
    (hn : ∀ r ∈ (n.field? "parameters").toList.flatMap
      (·.namedChildren.flatMap Node.parameterReadings), r.IsClear source)
    (hn' : ∀ r ∈ (n'.field? "parameters").toList.flatMap
      (·.namedChildren.flatMap Node.parameterReadings), r.IsClear source') :
    (n.parameterTexts source).toOption = (n'.parameterTexts source').toOption := by
  unfold Node.parameterTexts
  rcases none_or_exists_of_rel (h.field? "parameters") with ⟨hl, hl'⟩ | ⟨l, l', hl, hl', hrel⟩
  · rw [hl, hl']
  · rw [hl] at hn ⊢
    rw [hl'] at hn' ⊢
    simp only [Option.toList_some, List.flatMap_singleton, List.mem_flatMap] at hn hn'
    refine toOption_filterMapM_eq hrel.namedChildren ?_ ?_
    · intro m hm m' hm' hmm'
      refine hmm'.toOption_parameterText_eq ?_ ?_
      · intro r hr
        exact hn r ⟨m, hm, hr⟩
      · intro r hr
        exact hn' r ⟨m', hm', hr⟩
    · intro c _ hc
      rw [Node.parameterText?, if_neg (hc.type_ne "formal_parameter" (by decide) (by decide)),
        if_neg (hc.type_ne "spread_parameter" (by decide) (by decide))]
      rfl

theorem toOption_methodDecl_eq (h : Commented source source' n n')
    (hn : ∀ r ∈ n.methodReadings, r.IsClear source)
    (hn' : ∀ r ∈ n'.methodReadings, r.IsClear source') :
    (n.methodDecl? source).toOption = (n'.methodDecl? source').toOption := by
  unfold Node.methodReadings at hn hn'
  unfold Node.methodDecl?
  rcases none_or_exists_of_rel (h.field? "name") with ⟨hm, hm'⟩ | ⟨m, m', hm, hm', hname⟩
  · rw [hm, hm']
  · rcases none_or_exists_of_rel (h.field? "type") with ⟨ht, ht'⟩ | ⟨t, t', ht, ht', htype⟩
    · rw [hm, hm', ht, ht']
    · rw [hm, ht] at hn ⊢
      rw [hm', ht'] at hn' ⊢
      rw [List.forall_mem_cons, List.forall_mem_cons] at hn hn'
      have hnameText := congrArg Except.toOption (text_eq_of_uncommented hname hn'.1)
      have hparameters := h.toOption_parameterTexts_eq hn.2.2 hn'.2.2
      have htypeText := toOption_typeText_eq htype hn.2.1 hn'.2.1
      refine toOption_bind_congr hnameText fun _ => ?_
      refine toOption_bind_congr hparameters fun _ => ?_
      refine toOption_bind_congr htypeText fun _ => ?_
      rw [h.modifierTexts_eq]

end Commented

end

end MethodSig.Source
