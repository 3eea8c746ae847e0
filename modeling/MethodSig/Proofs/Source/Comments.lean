import MethodSig.Proofs.Signature.Generics
import MethodSig.Proofs.Text.Decodes
import MethodSig.Source.Declarations

/-!
# Placing comments in a syntax tree

A comment is placed in a source as one more node among the parts of a node, which all enclosing
nodes then cover. The texts of the other nodes stay as they are unless a comment is placed inside
them, and type texts stay the same also where it is placed among type arguments.
-/

namespace MethodSig.Source

open Signature Text

/-- The node is a comment, which stands in no field of its parent. -/
structure Node.IsComment (n : Node) : Prop where
  type : n.type = "line_comment" ∨ n.type = "block_comment"
  named : n.named = true
  field : n.field = none

/-- The bytes that a node covers. -/
def Node.bytes (source : List UInt8) (n : Node) : List UInt8 :=
  (source.drop n.start).take (n.stop - n.start)

theorem Node.text_eq (source : List UInt8) (n : Node) :
    n.text source = Utf8.decode (n.bytes source) :=
  rfl

def isWhite (b : UInt8) : Bool :=
  b = 0x20 || 0x09 ≤ b && b ≤ 0x0d

/-- The second text and its parts are the first text and its parts with comments in between, each
perhaps with white space around it. Parts that are no such comments are related by `R`. -/
inductive Interspersed (R : Node → Node → Prop) (source source' : List UInt8) :
    List UInt8 → List UInt8 → List Node → List Node → Prop
  | nil : Interspersed R source source' [] [] [] []
  /-- Both texts go on with a byte between their parts. -/
  | byte {text text' : List UInt8} {parts parts' : List Node} (b : UInt8)
      (h : Interspersed R source source' text text' parts parts') :
      Interspersed R source source' (b :: text) (b :: text') parts parts'
  | part {text text' : List UInt8} {parts parts' : List Node} {n n' : Node} (hn : R n n')
      (h : Interspersed R source source' text text' parts parts') :
      Interspersed R source source' (n.bytes source ++ text) (n'.bytes source' ++ text')
        (n :: parts) (n' :: parts')
  | comment {text text' before after : List UInt8} {parts parts' : List Node} {c : Node}
      (hc : c.IsComment) (hbefore : before.all isWhite) (hafter : after.all isWhite)
      (h : Interspersed R source source' text text' parts parts') :
      Interspersed R source source' text (before ++ c.bytes source' ++ after ++ text')
        parts (c :: parts')

/-- The second tree is the first one with comments placed in it, each tree with its source. -/
inductive Commented (source source' : List UInt8) : Node → Node → Prop
  | mk {n n' : Node} (htype : n'.type = n.type) (hnamed : n'.named = n.named)
      (hfield : n'.field = n.field)
      (hparts : Interspersed (Commented source source') source source' (n.bytes source)
        (n'.bytes source') n.children n'.children) :
      Commented source source' n n'

/-- The second nodes are the first ones and comments between them. -/
inductive Among (R : Node → Node → Prop) : List Node → List Node → Prop
  | nil : Among R [] []
  | part {n n' : Node} {parts parts' : List Node} (hn : R n n') (h : Among R parts parts') :
      Among R (n :: parts) (n' :: parts')
  | comment {c : Node} {parts parts' : List Node} (hc : c.IsComment) (h : Among R parts parts') :
      Among R parts (c :: parts')

section

variable {R : Node → Node → Prop} {source source' : List UInt8}

/-- Both texts go on with the same bytes between their parts. -/
theorem Interspersed.gap {text text' : List UInt8} {parts parts' : List Node} (bytes : List UInt8)
    (h : Interspersed R source source' text text' parts parts') :
    Interspersed R source source' (bytes ++ text) (bytes ++ text') parts parts' := by
  induction bytes with
  | nil => exact h
  | cons b bytes ih => exact .byte b ih

theorem Interspersed.among {text text' : List UInt8} {parts parts' : List Node}
    (h : Interspersed R source source' text text' parts parts') : Among R parts parts' := by
  induction h with
  | nil => exact .nil
  | byte b _ ih => exact ih
  | part hn _ ih => exact .part hn ih
  | comment hc _ _ _ ih => exact .comment hc ih

/-- A relation between texts that holds of the parts holds of the whole, if none of the parts is a
comment. -/
theorem Interspersed.texts {text text' : List UInt8} {parts parts' : List Node}
    (h : Interspersed R source source' text text' parts parts')
    {T : List UInt8 → List UInt8 → Prop} (hnil : T [] [])
    (hbyte : ∀ b t t', T t t' → T (b :: t) (b :: t'))
    (happend : ∀ {s s' t t'}, T s s' → T t t' → T (s ++ t) (s' ++ t'))
    (hparts : ∀ n' ∈ parts', ¬ n'.IsComment)
    (hbytes : ∀ n ∈ parts, ∀ n' ∈ parts', R n n' → T (n.bytes source) (n'.bytes source')) :
    T text text' := by
  induction h with
  | nil => exact hnil
  | byte b _ ih => exact hbyte b _ _ (ih hparts hbytes)
  | part hn _ ih =>
      rw [List.forall_mem_cons] at hparts
      refine happend (hbytes _ List.mem_cons_self _ List.mem_cons_self hn) (ih hparts.2 ?_)
      intro n hn n' hn'
      exact hbytes n (List.mem_cons_of_mem _ hn) n' (List.mem_cons_of_mem _ hn')
  | comment hc _ _ _ _ => exact absurd hc (hparts _ List.mem_cons_self)

namespace Commented

variable {n n' : Node}

theorem type (h : Commented source source' n n') : n'.type = n.type := by
  cases h
  assumption

theorem named (h : Commented source source' n n') : n'.named = n.named := by
  cases h
  assumption

theorem field (h : Commented source source' n n') : n'.field = n.field := by
  cases h
  assumption

theorem interspersed (h : Commented source source' n n') :
    Interspersed (Commented source source') source source' (n.bytes source) (n'.bytes source')
      n.children n'.children := by
  cases h
  assumption

theorem among (h : Commented source source' n n') :
    Among (Commented source source') n.children n'.children :=
  h.interspersed.among

theorem of_parts {text text' : List UInt8}
    (hn : n'.type = n.type ∧ n'.named = n.named ∧ n'.field = n.field)
    (hparts : Interspersed (Commented source source') source source' text text'
      n.children n'.children) (htext : n.bytes source = text) (htext' : n'.bytes source' = text') :
    Commented source source' n n' := by
  subst htext htext'
  exact .mk hn.1 hn.2.1 hn.2.2 hparts

/-- A node without parts that keeps its text. -/
theorem of_bytes_eq
    (hn : n'.type = n.type ∧ n'.named = n.named ∧ n'.field = n.field)
    (hparts : n.children = [] ∧ n'.children = []) (hbytes : n.bytes source = n'.bytes source') :
    Commented source source' n n' := by
  refine .of_parts hn ?_ (List.append_nil _).symm ((List.append_nil _).trans hbytes).symm
  rw [hparts.1, hparts.2]
  exact .gap _ .nil

end Commented

end

/-! ## Nodes and the comments between them -/

theorem Node.IsComment.type_ne {c : Node} (hc : c.IsComment) (type : String)
    (hline : type ≠ "line_comment") (hblock : type ≠ "block_comment") : c.type ≠ type := by
  rcases hc.type with h | h
  · exact h ▸ hline.symm
  · exact h ▸ hblock.symm

theorem Node.IsComment.contains_type_eq_false {c : Node} (hc : c.IsComment) (types : List String)
    (hline : "line_comment" ∉ types) (hblock : "block_comment" ∉ types) :
    types.contains c.type = false := by
  rcases hc.type with h | h
  · rw [h]
    simpa using hline
  · rw [h]
    simpa using hblock

namespace Among

variable {R : Node → Node → Prop} {ns ns' ms ms' : List Node}

theorem filter (h : Among R ns ns') {p : Node → Bool} (hp : ∀ n n', R n n' → p n' = p n) :
    Among R (ns.filter p) (ns'.filter p) := by
  induction h with
  | nil => exact .nil
  | @part n n' _ _ hn _ ih =>
      rw [List.filter_cons, List.filter_cons, hp n n' hn]
      split
      · exact .part hn ih
      · exact ih
  | comment hc _ ih =>
      rw [List.filter_cons]
      split
      · exact .comment hc ih
      · exact ih

theorem append (hn : Among R ns ns') (hm : Among R ms ms') : Among R (ns ++ ms) (ns' ++ ms') := by
  induction hn with
  | nil => exact hm
  | part hn _ ih => exact .part hn ih
  | comment hc _ ih => exact .comment hc ih

theorem of_comments (hms : ∀ c ∈ ms, c.IsComment) (h : Among R ns ns') :
    Among R ns (ms ++ ns') := by
  induction ms with
  | nil => exact h
  | cons c ms ih =>
      rw [List.forall_mem_cons] at hms
      exact .comment hms.1 (ih hms.2)

theorem flatMap (h : Among R ns ns') {g : Node → List Node}
    (hg : ∀ n n', R n n' → Among R (g n) (g n'))
    (hc : ∀ c ∈ ns', c.IsComment → ∀ m ∈ g c, m.IsComment) :
    Among R (ns.flatMap g) (ns'.flatMap g) := by
  induction h with
  | nil => exact .nil
  | part hn _ ih =>
      rw [List.flatMap_cons, List.flatMap_cons]
      rw [List.forall_mem_cons] at hc
      exact (hg _ _ hn).append (ih hc.2)
  | comment hcomment _ ih =>
      rw [List.flatMap_cons]
      rw [List.forall_mem_cons] at hc
      exact of_comments (hc.1 hcomment) (ih hc.2)

theorem find? (h : Among R ns ns') {p : Node → Bool} (hp : ∀ n n', R n n' → p n' = p n)
    (hfound : ∀ m, ns'.find? p = some m → ¬ m.IsComment) :
    Option.Rel R (ns.find? p) (ns'.find? p) := by
  induction h with
  | nil => exact .none
  | @part n n' _ _ hn _ ih =>
      rw [List.find?_cons, hp n n' hn] at hfound
      rw [List.find?_cons, List.find?_cons, hp n n' hn]
      cases hpn : p n with
      | true => exact .some hn
      | false =>
          rw [hpn] at hfound
          exact ih hfound
  | @comment c _ _ hc _ ih =>
      rw [List.find?_cons] at hfound ⊢
      cases hpc : p c with
      | true =>
          rw [hpc] at hfound
          exact absurd hc (hfound c rfl)
      | false =>
          rw [hpc] at hfound
          exact ih hfound

theorem any_eq (h : Among R ns ns') {p : Node → Bool} (hp : ∀ n n', R n n' → p n' = p n)
    (hc : ∀ c : Node, c.IsComment → p c = false) : ns'.any p = ns.any p := by
  induction h with
  | nil => rfl
  | part hn _ ih => rw [List.any_cons, List.any_cons, hp _ _ hn, ih]
  | comment hcomment _ ih => rw [List.any_cons, hc _ hcomment, Bool.false_or, ih]

theorem filter_map_type_eq (h : Among R ns ns') (hR : ∀ n n', R n n' → n'.type = n.type)
    {p : String → Bool} (hc : ∀ c : Node, c.IsComment → p c.type = false) :
    (ns'.map Node.type).filter p = (ns.map Node.type).filter p := by
  induction h with
  | nil => rfl
  | part hn _ ih =>
      rw [List.map_cons, List.map_cons, List.filter_cons, List.filter_cons, hR _ _ hn, ih]
  | @comment c _ _ hcomment _ ih =>
      rw [List.map_cons, List.filter_cons, hc c hcomment, ih]
      rfl

end Among

/-- Related options both hold related nodes or both hold none. -/
theorem none_or_exists_of_rel {R : Node → Node → Prop} {found found' : Option Node}
    (h : Option.Rel R found found') :
    found = none ∧ found' = none ∨ ∃ n n', found = some n ∧ found' = some n' ∧ R n n' := by
  cases h with
  | none => exact .inl ⟨rfl, rfl⟩
  | some h => exact .inr ⟨_, _, rfl, rfl, h⟩

/-! ## Texts without comments -/

/-- The node is no comment, and none is in it. -/
inductive Uncommented : Node → Prop
  | mk {n : Node} (hn : ¬ n.IsComment) (hparts : ∀ part ∈ n.children, Uncommented part) :
      Uncommented n

section

variable {source source' : List UInt8} {n n' : Node}

theorem Uncommented.not_isComment (h : Uncommented n) : ¬ n.IsComment := by
  cases h
  assumption

theorem Uncommented.bytes_eq (h' : Uncommented n') (h : Commented source source' n n') :
    n.bytes source = n'.bytes source' := by
  induction h' generalizing n with
  | mk _ hparts ih =>
      refine h.interspersed.texts rfl ?_ ?_ (fun part hpart => (hparts part hpart).not_isComment) ?_
      · intro b t t' ht
        rw [ht]
      · intro s s' t t' hs ht
        rw [hs, ht]
      · intro part _ part' hpart' hrel
        exact ih part' hpart' hrel

end

/-! ## Type arguments -/

/-- The bytes stand for a text in angle brackets whose own brackets are matched. -/
def IsBracketed (bytes : List UInt8) : Prop :=
  ∃ inside chars, bytes = 0x3c :: inside ++ [0x3e] ∧ Utf8.Decodes inside chars ∧ Balanced chars

/-- A text in angle brackets is decoded on its own, wherever it stands. -/
theorem IsBracketed.exists_decodes_iff {s : List UInt8} (h : IsBracketed s) :
    ∃ inside, Balanced inside ∧ ∀ {p t : List UInt8} {chars : List Char},
      Utf8.Decodes (p ++ (s ++ t)) chars ↔
        ∃ x y, chars = x ++ ('<' :: inside ++ '>' :: y) ∧ Utf8.Decodes p x ∧ Utf8.Decodes t y := by
  obtain ⟨bytes, inside, rfl, hbytes, hbalanced⟩ := h
  refine ⟨inside, hbalanced, ?_⟩
  intro p t chars
  have hsplit : p ++ (0x3c :: bytes ++ [0x3e] ++ t) = p ++ 0x3c :: (bytes ++ 0x3e :: t) := by
    simp
  rw [hsplit, Utf8.Decodes.append_ascii_iff (by decide)]
  refine ⟨?_, ?_⟩
  · rintro ⟨x, z, rfl, hx, hz⟩
    obtain ⟨w, y, rfl, hw, hy⟩ := (Utf8.Decodes.append_ascii_iff (by decide)).mp hz
    rw [hw.unique hbytes]
    exact ⟨x, y, rfl, hx, hy⟩
  · rintro ⟨x, y, rfl, hx, hy⟩
    exact ⟨x, inside ++ '>' :: y, rfl, hx,
      (Utf8.Decodes.append_ascii_iff (by decide)).mpr ⟨inside, y, rfl, hbytes, hy⟩⟩

/-- Comments are in the node only where they are among type arguments, and the brackets of these are
matched. -/
inductive Enclosed (source : List UInt8) : Node → Prop
  | arguments {n : Node} (htype : n.type = "type_arguments") (h : IsBracketed (n.bytes source)) :
      Enclosed source n
  | parts {n : Node} (htype : n.type ≠ "type_arguments") (hn : ¬ n.IsComment)
      (hparts : ∀ part ∈ n.children, Enclosed source part) : Enclosed source n

/-- The texts are the same but for what stands in angle brackets. -/
inductive SameOutside : List UInt8 → List UInt8 → Prop
  | nil : SameOutside [] []
  | byte {t t' : List UInt8} (b : UInt8) (h : SameOutside t t') : SameOutside (b :: t) (b :: t')
  | bracketed {s s' t t' : List UInt8} (hs : IsBracketed s) (hs' : IsBracketed s')
      (h : SameOutside t t') : SameOutside (s ++ t) (s' ++ t')

namespace SameOutside

variable {s s' t t' : List UInt8}

theorem symm (h : SameOutside t t') : SameOutside t' t := by
  induction h with
  | nil => exact .nil
  | byte b _ ih => exact .byte b ih
  | bracketed hs hs' _ ih => exact .bracketed hs' hs ih

theorem append (hs : SameOutside s s') (ht : SameOutside t t') :
    SameOutside (s ++ t) (s' ++ t') := by
  induction hs with
  | nil => exact ht
  | byte b _ ih => exact .byte b ih
  | bracketed hs hs' _ ih =>
      rw [List.append_assoc, List.append_assoc]
      exact .bracketed hs hs' ih

/-- A pass over the brackets of one text ends like a pass over those of the other. -/
theorem foldl_read_eq (h : SameOutside t t') {p : List UInt8} {chars' : List Char}
    (hchars' : Utf8.Decodes (p ++ t') chars') :
    ∃ chars, Utf8.Decodes (p ++ t) chars ∧
      ∀ b : Brackets, chars.foldl Brackets.read b = chars'.foldl Brackets.read b := by
  -- `p` holds the bytes since the last bracketed text, which may end inside a character
  induction h generalizing p chars' with
  | nil => exact ⟨chars', hchars', fun _ => rfl⟩
  | @byte t t' b _ ih =>
      rw [List.append_cons] at hchars' ⊢
      exact ih hchars'
  | @bracketed s s' t t' hs hs' _ ih =>
      obtain ⟨inside, hinside, hdecodes⟩ := hs.exists_decodes_iff
      obtain ⟨inside', hinside', hdecodes'⟩ := hs'.exists_decodes_iff
      obtain ⟨x, y', rfl, hx, hy'⟩ := hdecodes'.mp hchars'
      obtain ⟨y, hy, hfold⟩ := @ih [] y' hy'
      refine ⟨x ++ ('<' :: inside ++ '>' :: y), hdecodes.mpr ⟨x, y, rfl, hx, hy⟩, ?_⟩
      intro b
      rw [List.foldl_append, Brackets.foldl_read_bracketed _ hinside, hfold, List.foldl_append,
        Brackets.foldl_read_bracketed _ hinside']

theorem exists_decode_eq_ok (h : SameOutside t t') {whole' : String}
    (hwhole' : Utf8.decode t' = .ok whole') :
    ∃ whole, Utf8.decode t = .ok whole ∧
      removeTypeParameters whole.toList = removeTypeParameters whole'.toList := by
  rw [Utf8.decode_eq_ok_iff] at hwhole'
  obtain ⟨chars, hchars, hfold⟩ := @foldl_read_eq _ _ h [] _ hwhole'
  refine ⟨String.ofList chars, ?_, ?_⟩
  · rw [Utf8.decode_eq_ok_iff, String.toList_ofList]
    exact hchars
  · rw [String.toList_ofList, removeTypeParameters_eq_outside, removeTypeParameters_eq_outside,
      outside, outside, hfold]

end SameOutside

section

variable {source source' : List UInt8} {n n' : Node}

theorem Enclosed.not_isComment (h : Enclosed source n) : ¬ n.IsComment := by
  intro hn
  cases h with
  | arguments htype _ =>
      rcases htype ▸ hn.type with h | h
      · exact absurd h (by decide)
      · exact absurd h (by decide)
  | parts _ hnot _ => exact hnot hn

theorem Enclosed.sameOutside (h' : Enclosed source' n') (h : Enclosed source n)
    (hcommented : Commented source source' n n') :
    SameOutside (n.bytes source) (n'.bytes source') := by
  induction h' generalizing n with
  | arguments htype' hbracketed' =>
      cases h with
      | arguments htype hbracketed =>
          simpa using SameOutside.bracketed hbracketed hbracketed' .nil
      | parts htype _ _ => exact absurd (hcommented.type ▸ htype') htype
  | parts htype' _ hparts' ih =>
      cases h with
      | arguments htype _ => exact absurd (hcommented.type.trans htype) htype'
      | parts _ _ hparts =>
          refine hcommented.interspersed.texts .nil (fun b t t' => .byte b) .append
            (fun part' hpart' => (hparts' part' hpart').not_isComment) ?_
          intro part hpart part' hpart' hrel
          exact ih part' hpart' (hparts part hpart) hrel

theorem toOption_typeText_eq (h : Commented source source' n n') (hn : Enclosed source n)
    (hn' : Enclosed source' n') :
    (n.typeText source).toOption = (n'.typeText source').toOption := by
  have hsame := hn'.sameOutside hn h
  unfold Node.typeText
  rw [h.type, Node.text_eq, Node.text_eq]
  split
  next => rfl
  next =>
    cases hwhole' : Utf8.decode (n'.bytes source') with
    | ok whole' =>
        obtain ⟨whole, hwhole, heq⟩ := hsame.exists_decode_eq_ok hwhole'
        rw [hwhole]
        simp [Except.toOption, heq]
    | error fault' =>
        cases hwhole : Utf8.decode (n.bytes source) with
        | ok whole =>
            obtain ⟨whole', hwhole'', _⟩ := hsame.symm.exists_decode_eq_ok hwhole
            rw [hwhole'] at hwhole''
            contradiction
        | error fault => rfl

theorem text_eq_of_uncommented (h : Commented source source' n n') (hn' : Uncommented n') :
    n.text source = n'.text source' := by
  rw [Node.text_eq, Node.text_eq, hn'.bytes_eq h]

end

end MethodSig.Source
