import MethodSig.Source.Types

/-!
# Reading a source text

A compilation unit is a package, imports and declared types, and a type holds members. A member
ends at its first semicolon or pair of braces, unless it has an initial value: then it ends at its
first semicolon. The statements of methods and the values of fields are passed over.
-/

namespace MethodSig.Source

open Phrase

def nameNode (field : Option String) (ps : List Phrase) : Node :=
  covering (if ps.length = 1 then "identifier" else "scoped_identifier") field [] ps

/-- The node of one parameter, whose phrases hold no separating comma. -/
def parameter (ps : List Phrase) : Node :=
  let (mods, n) := modifiers ps
  let typed := ps.drop n
  let t := typeLength typed
  let rest := typed.drop t
  let spread := rest.drop (annotationsLength rest)
  if (spread.take 3).map (isSymbol '.') = [true, true, true] then
    let named := spread.drop 3
    let declarator := named.drop (annotationsLength named)
    covering "spread_parameter" none
      (mods ++ typeNode none (typed.take t) :: (spread.take 3).map mark ++
        [covering "variable_declarator" none [] declarator]) ps
  else if rest.getLast?.any (·.word = "this") then covering "receiver_parameter" none [] ps
  else
    let dims := dimensionsLength (rest.drop 1)
    let dimensions := if dims = 0 then []
      else [covering "dimensions" (some "dimensions") [] ((rest.drop 1).take dims)]
    covering "formal_parameter" none
      (mods ++ typeNode (some "type") (typed.take t) :: nameNode (some "name") (rest.take 1) ::
        dimensions) ps

/-- The phrases of a parameter up to its comma. The commas between type arguments belong to its
type. -/
def parameterLength (ps : List Phrase) : Nat :=
  let n := (modifiers ps).2
  let typed := n + typeLength (ps.drop n)
  typed + ((ps.drop typed).takeWhile (!isSymbol ',' ·)).length

theorem length_lt_of_drop_eq_cons {ps rest : List Phrase} {n : Nat} {p : Phrase}
    (h : ps.drop n = p :: rest) : rest.length < ps.length := by
  have := congrArg List.length h
  simp only [List.length_drop, List.length_cons] at this
  omega

/-- The parameters of a method and the commas between them. -/
def parameters (ps : List Phrase) : List Node :=
  let n := parameterLength ps
  if ps.isEmpty then []
  else match h : ps.drop n with
    | comma :: rest =>
      have := length_lt_of_drop_eq_cons h
      parameter (ps.take n) :: mark comma :: parameters rest
    | [] => [parameter ps]
termination_by ps.length

def parametersNode : Phrase → Node
  | .group opening inside stop =>
    ⟨"formal_parameters", true, opening.start, stop, some "parameters", parameters inside⟩
  | p => covering "formal_parameters" (some "parameters") [] [p]

/-- The clauses between the name of a type and its braces that list other types. -/
def clauses (isInterface : Bool) (ps : List Phrase) : List Node :=
  match ps with
  | [] => []
  | p :: rest =>
    let (types, n) := typeList rest
    let list := covering "type_list" none types (rest.take n)
    let clause (type : String) (types : List Node) (n : Nat) :=
      covering type none (mark p :: types) (p :: rest.take n) :: clauses isInterface (rest.drop n)
    if p.word = "implements" && 0 < n then clause "super_interfaces" [list] n
    else if p.word = "extends" && isInterface && 0 < n then clause "extends_interfaces" [list] n
    else if p.word = "extends" && !isInterface then
      let m := annotatedTypeLength rest
      clause "superclass" [typeNode none (rest.take m)] m
    else clauses isInterface rest
termination_by ps.length
decreasing_by
  all_goals simp only [List.length_drop, List.length_cons]; omega

/-- What the braces of a declaration hold. -/
inductive Body where
  /-- Nothing that is looked into. -/
  | statements
  /-- Members, in a body of the given type. -/
  | members (type : String)
  /-- The constants of an enumeration, and perhaps members behind a semicolon. -/
  | constants
deriving DecidableEq

/-- A declaration without what its braces hold. -/
structure Outline where
  type : String
  parts : List Node
  body : Body

def passedOver (type : String) : Outline :=
  ⟨type, [], .statements⟩

/-- The outline of a type, given by its phrases from its name on. -/
def typeOutline (type : String) (body : Body) (parts : List Node) (ps : List Phrase) : Outline :=
  let header := ps.takeWhile (!isGroup '\x7b' ·)
  ⟨type, parts ++ nameNode (some "name") (ps.take 1) ::
    clauses (type = "interface_declaration") (header.drop (1 + anglesLength (header.drop 1))), body⟩

/-- The outline of a method, a constructor or a field. -/
def memberOutline (mods : List Node) (ps : List Phrase) : Outline :=
  let parameterized := ps.drop (anglesLength ps)
  let typed := parameterized.drop (annotationsLength parameterized)
  let t := typeLength typed
  match typed.drop t with
  | name :: params :: _ =>
    if name.isWord && params.isGroup '(' then
      ⟨"method_declaration", mods ++ [typeNode (some "type") (typed.take t),
        nameNode (some "name") [name], parametersNode params], .statements⟩
    else passedOver "field_declaration"
  | _ => passedOver "constructor_declaration"

/-- The outline of a package, given by the phrases behind its keyword. -/
def packageOutline (ps : List Phrase) : Outline :=
  ⟨"package_declaration", [nameNode none (ps.take (1 + dottedLength (ps.drop 1)))], .statements⟩

/-- The outline of an import, given by the phrases behind its keyword. -/
def importOutline (ps : List Phrase) : Outline :=
  let ofMembers := ps.takeWhile (·.word = "static")
  let path := ps.drop ofMembers.length
  let named := path.take (1 + dottedLength (path.drop 1))
  let onDemand := (path.drop (named.length + 1)).takeWhile (isSymbol '*')
  ⟨"import_declaration", ofMembers.map mark ++ nameNode none named ::
    onDemand.map (fun p => { mark p with type := "asterisk", named := true }), .statements⟩

def statementWords : List String :=
  ["assert", "break", "case", "catch", "continue", "do", "else", "finally", "for", "if", "new",
    "return", "super", "switch", "this", "throw", "try", "while"]

/-- The outline of a member, or of a part of a compilation unit. -/
def outline (ps : List Phrase) : Outline :=
  let (mods, n) := modifiers ps
  match ps.drop n with
  | key :: rest =>
    let isType := rest.head?.any isWord
    let hasHeader := (rest.drop 1).head?.any fun p => p.isGroup '(' || p.isSymbol '<'
    match key.word with
    | "package" => packageOutline rest
    | "import" => importOutline rest
    | "class" => typeOutline "class_declaration" (.members "class_body") mods rest
    | "interface" => typeOutline "interface_declaration" (.members "interface_body") mods rest
    | "enum" => typeOutline "enum_declaration" .constants mods rest
    | word =>
      if word = "record" && isType && hasHeader then
        typeOutline "record_declaration" (.members "class_body") mods rest
      else if key.isSymbol '@' then passedOver "annotation_type_declaration"
      else if key.isGroup '\x7b' then passedOver "block"
      else if statementWords.contains word then passedOver "statement"
      else memberOutline mods (key :: rest)
  | [] => passedOver "modifiers"

/-- The number of phrases up to and with the first semicolon. -/
def lengthThroughSemicolon : List Phrase → Nat
  | [] => 0
  | p :: rest => if p.isSymbol ';' then 1 else 1 + lengthThroughSemicolon rest

def memberLength : List Phrase → Nat
  | [] => 0
  | p :: rest =>
    if p.isSymbol ';' || p.isGroup '\x7b' then 1
    else if p.isSymbol '=' then 1 + lengthThroughSemicolon rest
    else 1 + memberLength rest

/-- A pair of braces and the phrases between them. -/
structure Braces where
  opening : Token
  inside : List Phrase
  stop : Nat

def braces? : List Phrase → Option Braces
  | [] => none
  | .token _ :: rest => braces? rest
  | .group opening inside stop :: rest =>
    if opening.bytes = ['\x7b'] then some ⟨opening, inside, stop⟩ else braces? rest

theorem sizeOf_inside_lt {ps : List Phrase} {n : Nat} {b : Braces}
    (h : braces? (ps.take n) = some b) : sizeOf b.inside < sizeOf ps := by
  induction ps generalizing n with
  | nil => simp [braces?] at h
  | cons p rest ih =>
    cases n with
    | zero => simp [braces?] at h
    | succ n =>
      rw [List.take_succ_cons] at h
      cases p with
      | token t =>
        have := ih h
        simp only [List.cons.sizeOf_spec]
        omega
      | group opening inside stop =>
        unfold braces? at h
        split at h
        · simp only [Option.some.injEq] at h
          subst h
          simp only [List.cons.sizeOf_spec, Phrase.group.sizeOf_spec]
          omega
        · have := ih h
          simp only [List.cons.sizeOf_spec]
          omega

theorem sizeOf_drop_le (ps : List Phrase) (n : Nat) : sizeOf (ps.drop n) ≤ sizeOf ps := by
  induction ps generalizing n with
  | nil => simp
  | cons p rest ih =>
    cases n with
    | zero => simp
    | succ n =>
      have := ih n
      simp only [List.drop_succ_cons, List.cons.sizeOf_spec]
      omega

/-- The number of phrases in front of the first semicolon. -/
def lengthBeforeSemicolon (ps : List Phrase) : Nat :=
  (ps.takeWhile (!isSymbol ';' ·)).length

def members (ps : List Phrase) : List Node :=
  match ps with
  | [] => []
  | p :: rest =>
    let n := memberLength (p :: rest)
    let o := outline ((p :: rest).take n)
    have := sizeOf_drop_le rest (memberLength (p :: rest) - 1)
    let body := match h : braces? ((p :: rest).take n) with
      | none => []
      | some b =>
        have := sizeOf_inside_lt h
        let bodyNode (type : String) (children : List Node) : List Node :=
          [⟨type, true, b.opening.start, b.stop, some "body", children⟩]
        match o.body with
        | .statements => bodyNode "block" []
        | .members type => bodyNode type (members b.inside)
        | .constants =>
          let m := lengthBeforeSemicolon b.inside
          have := sizeOf_drop_le b.inside (lengthBeforeSemicolon b.inside)
          bodyNode "enum_body" (if m = b.inside.length then []
            else [covering "enum_body_declarations" none (members (b.inside.drop m))
              (b.inside.drop m)])
    covering o.type none (o.parts ++ body) ((p :: rest).take n) :: members (rest.drop (n - 1))
termination_by sizeOf ps
decreasing_by
  all_goals simp only [List.cons.sizeOf_spec] at *; omega

def commentNode (t : Token) : Node :=
  ⟨if t.kind = .lineComment then "line_comment" else "block_comment", true, t.start, t.stop, none,
    []⟩

/-- The syntax tree of a source text. Comments are parts of the innermost node around them. -/
def parse (source : List UInt8) : Node :=
  let found := tokens source
  let unit : Node := ⟨"program", true, 0, source.length, none,
    members (phrases (found.filter (!·.isComment)))⟩
  (found.filter Token.isComment).foldl (fun tree t => Node.insert (commentNode t) tree) unit

end MethodSig.Source
