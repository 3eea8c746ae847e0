import MethodSig.Proofs.Json.Number
import MethodSig.Proofs.Json.String

/-!
# Values that were written are read back

A plain value is the value of the text that it is written as. The proof follows the value: its
parts are read back wherever they stand in the text, if the text behind them does not go on like a
number.
-/

namespace MethodSig.Json

/-- A value without fractions, numbers of too many digits, broken strings and repeated fields. -/
inductive IsPlain : Json → Prop where
  | null : IsPlain .null
  | bool (b : Bool) : IsPlain (.bool b)
  | int {n : ℤ} (h : HasFewDigits n.natAbs) : IsPlain (.int n)
  | string (s : String) : IsPlain (.string s)
  | array {items : List Json} (h : ∀ item ∈ items, IsPlain item) : IsPlain (.array items)
  | object {fields : List (String × Json)} (hnames : (fields.map Prod.fst).Nodup)
      (h : ∀ value ∈ fields.map Prod.snd, IsPlain value) : IsPlain (.object fields)

/-! ## Spaces -/

theorem skip_cons_of_isSpace_eq_false {c : Char} (hc : isSpace c = false) (s : List Char) :
    skip (c :: s) = c :: s :=
  List.dropWhile_cons_of_neg (by simp [hc])

theorem skip_space (s : List Char) : skip (' ' :: s) = skip s :=
  List.dropWhile_cons_of_pos (by decide)

theorem skip_newline (level : ℕ) (s : List Char) : skip (newline level ++ s) = skip s := by
  have hspaces : ∀ c ∈ newline level, isSpace c = true := by
    refine List.forall_mem_cons.mpr ⟨by decide, ?_⟩
    intro c hc
    rw [List.eq_of_mem_replicate hc]
    decide
  exact List.dropWhile_append_of_pos hspaces

theorem endsNumber_newline (level : ℕ) (s : List Char) : EndsNumber (newline level ++ s) :=
  endsNumber_cons _ (by decide)

/-- A written value begins neither with a space nor with the end of an array or a byte order
mark. -/
theorem exists_write_eq_cons {value : Json} (h : IsPlain value) (level : ℕ) :
    ∃ c s, value.write level = c :: s ∧ isSpace c = false ∧ c ≠ ']' ∧ c ≠ '\ufeff' := by
  cases h with
  | null => exact ⟨'n', _, rfl, by decide, by decide, by decide⟩
  | bool b =>
      cases b with
      | false => exact ⟨'f', _, rfl, by decide, by decide, by decide⟩
      | true => exact ⟨'t', _, rfl, by decide, by decide, by decide⟩
  | @int n h =>
      obtain ⟨c, digits, hc, heq | heq⟩ := toString_int_cases n
      · refine ⟨c, digits, by rw [write, heq], ?_, ?_, ?_⟩
        · by_contra hspace
          simp only [isSpace, Bool.not_eq_false, Bool.or_eq_true, decide_eq_true_eq] at hspace
          rcases hspace with ((rfl | rfl) | rfl) | rfl <;> contradiction
        · rintro rfl
          contradiction
        · rintro rfl
          contradiction
      · exact ⟨'-', c :: digits, by rw [write, heq], by decide, by decide, by decide⟩
  | string s => exact ⟨'"', _, rfl, by decide, by decide, by decide⟩
  | @array items h =>
      cases items with
      | nil => exact ⟨'[', _, rfl, by decide, by decide, by decide⟩
      | cons item rest => exact ⟨'[', _, by rw [write]; rfl, by decide, by decide, by decide⟩
  | @object fields hnames h =>
      cases fields with
      | nil => exact ⟨'\x7b', _, rfl, by decide, by decide, by decide⟩
      | cons field rest => exact ⟨'\x7b', _, by rw [write]; rfl, by decide, by decide, by decide⟩

/-! ## Reading the parts -/

section Parts

variable {s inner left r : List Char}

theorem reads_readValue_string {text : List Char}
    (h : Reads (stringBody ('"' :: s) s) (some text) left) :
    Reads (readValue ('"' :: s)) (.string (String.ofList text)) left := by
  obtain ⟨hlength, hs⟩ := h
  refine ⟨Nat.lt_succ_of_lt hlength, ?_⟩
  rw [readValue, hs]

theorem reads_readValue_array_nil (h : skip s = ']' :: left) :
    Reads (readValue ('[' :: s)) (.array []) left := by
  have hskip := length_skip_le s
  rw [h, List.length_cons] at hskip
  refine ⟨by rw [List.length_cons]; omega, ?_⟩
  rw [readValue]
  split
  next left' heq =>
    rw [h] at heq
    cases heq
    rfl
  next hne => exact absurd h (hne left)

theorem reads_readValue_array {items : List Json} (hne : ∀ left, skip s ≠ ']' :: left)
    (h : Reads (readItems (skip s)) items left) :
    Reads (readValue ('[' :: s)) (.array items) left := by
  obtain ⟨hlength, hitems⟩ := h
  have hskip := length_skip_le s
  refine ⟨by rw [List.length_cons]; omega, ?_⟩
  rw [readValue]
  split
  next left' heq => exact absurd heq (hne left')
  next => rw [hitems]

theorem reads_readItems_singleton {item : Json} (hitem : Reads (readValue s) item r)
    (hend : skip r = ']' :: left) : Reads (readItems s) [item] left := by
  obtain ⟨hlength, hitem⟩ := hitem
  have hskip := length_skip_le r
  rw [hend, List.length_cons] at hskip
  refine ⟨by omega, ?_⟩
  rw [readItems, hitem]
  dsimp only
  split
  next heq =>
    rw [hend] at heq
    cases heq
    rfl
  next heq =>
    rw [hend] at heq
    cases heq
  next hne _ => exact absurd hend (hne left)

theorem reads_readItems_cons {item : Json} {items : List Json} {more : List Char}
    (hitem : Reads (readValue s) item r) (hcomma : skip r = ',' :: more)
    (hitems : Reads (readItems (skip more)) items left) :
    Reads (readItems s) (item :: items) left := by
  obtain ⟨hlength, hitem⟩ := hitem
  obtain ⟨hlength', hitems⟩ := hitems
  have hskip := length_skip_le r
  have hskip' := length_skip_le more
  rw [hcomma, List.length_cons] at hskip
  refine ⟨by omega, ?_⟩
  rw [readItems, hitem]
  dsimp only
  split
  next heq =>
    rw [hcomma] at heq
    cases heq
  next heq =>
    rw [hcomma] at heq
    cases heq
    rw [hitems]
  next hne => exact absurd hcomma (hne more)

theorem reads_readValue_object_nil (h : skip s = '\x7d' :: left) :
    Reads (readValue ('\x7b' :: s)) (.object []) left := by
  have hskip := length_skip_le s
  rw [h, List.length_cons] at hskip
  refine ⟨by rw [List.length_cons]; omega, ?_⟩
  rw [readValue]
  split
  next left' heq =>
    rw [h] at heq
    cases heq
    rfl
  next hne => exact absurd h (hne left)

theorem reads_readValue_object {fields : List (String × Json)}
    (hne : ∀ left, skip s ≠ '\x7d' :: left) (h : Reads (readFields (skip s)) fields left) :
    Reads (readValue ('\x7b' :: s)) (.object fields) left := by
  obtain ⟨hlength, hfields⟩ := h
  have hskip := length_skip_le s
  refine ⟨by rw [List.length_cons]; omega, ?_⟩
  rw [readValue]
  split
  next left' heq => exact absurd heq (hne left')
  next => rw [hfields]

section Field

variable {name : Option (List Char)} {value : Json} {afterName colonLeft afterValue : List Char}

theorem reads_readFields_singleton (hname : Reads (stringBody ('"' :: s) s) name afterName)
    (hcolon : skip afterName = ':' :: colonLeft)
    (hvalue : Reads (readValue (skip colonLeft)) value afterValue)
    (hend : skip afterValue = '\x7d' :: left) :
    Reads (readFields ('"' :: s)) (consField name value []) left := by
  obtain ⟨hnameLength, hname⟩ := hname
  obtain ⟨hvalueLength, hvalue⟩ := hvalue
  have hskipName := length_skip_le afterName
  have hskipColon := length_skip_le colonLeft
  have hskipValue := length_skip_le afterValue
  rw [hcolon, List.length_cons] at hskipName
  rw [hend, List.length_cons] at hskipValue
  refine ⟨by rw [List.length_cons]; omega, ?_⟩
  rw [readFields, hname]
  dsimp only
  split
  next heq =>
    rw [hcolon] at heq
    cases heq
    rw [hvalue]
    dsimp only
    split
    next heq =>
      rw [hend] at heq
      cases heq
      rfl
    next heq =>
      rw [hend] at heq
      cases heq
    next hne _ => exact absurd hend (hne left)
  next hne => exact absurd hcolon (hne colonLeft)

theorem reads_readFields_cons {commaLeft : List Char} {fields : List (String × Json)}
    (hname : Reads (stringBody ('"' :: s) s) name afterName)
    (hcolon : skip afterName = ':' :: colonLeft)
    (hvalue : Reads (readValue (skip colonLeft)) value afterValue)
    (hcomma : skip afterValue = ',' :: commaLeft)
    (hfields : Reads (readFields (skip commaLeft)) fields left) :
    Reads (readFields ('"' :: s)) (consField name value fields) left := by
  obtain ⟨hnameLength, hname⟩ := hname
  obtain ⟨hvalueLength, hvalue⟩ := hvalue
  obtain ⟨hfieldsLength, hfields⟩ := hfields
  have hskipName := length_skip_le afterName
  have hskipColon := length_skip_le colonLeft
  have hskipValue := length_skip_le afterValue
  have hskipComma := length_skip_le commaLeft
  rw [hcolon, List.length_cons] at hskipName
  rw [hcomma, List.length_cons] at hskipValue
  refine ⟨by rw [List.length_cons]; omega, ?_⟩
  rw [readFields, hname]
  dsimp only
  split
  next heq =>
    rw [hcolon] at heq
    cases heq
    rw [hvalue]
    dsimp only
    split
    next heq =>
      rw [hcomma] at heq
      cases heq
    next heq =>
      rw [hcomma] at heq
      cases heq
      rw [hfields]
    next hne => exact absurd hcomma (hne commaLeft)
  next hne => exact absurd hcolon (hne colonLeft)

end Field

theorem reads_readValue_scalar {value : Json} {c : Char} {word : List Char}
    (hc : c ≠ '"' ∧ c ≠ '[' ∧ c ≠ '\x7b') (h : scalar (c :: (word ++ left)) = .ok (value, left)) :
    Reads (readValue (c :: (word ++ left))) value left := by
  have hlength : left.length < (c :: (word ++ left)).length := by
    simp only [List.length_cons, List.length_append]
    omega
  refine ⟨hlength, ?_⟩
  rw [readValue]
  · rw [h]
    exact dif_pos hlength
  · exact fun rest heq => hc.1 (List.cons.inj heq).1
  · exact fun rest heq => hc.2.1 (List.cons.inj heq).1
  · exact fun rest heq => hc.2.2 (List.cons.inj heq).1

end Parts

/-! ## Texts of values -/

theorem writeString_append (name : String) (s : List Char) :
    writeString name ++ s = '"' :: (name.toList.flatMap escapeChar ++ '"' :: s) := by
  simp [writeString]

theorem writeItems_cons_append (level : ℕ) (item : Json) (rest : List Json) (s : List Char) :
    writeItems level (item :: rest) ++ s =
      ',' :: (newline level ++ (item.write level ++ (writeItems level rest ++ s))) := by
  simp [writeItems]

theorem writeFields_cons_append (level : ℕ) (name : String) (value : Json)
    (rest : List (String × Json)) (s : List Char) :
    writeFields level ((name, value) :: rest) ++ s =
      ',' :: (newline level ++ (writeString name ++
        (':' :: ' ' :: (value.write level ++ (writeFields level rest ++ s))))) := by
  simp [writeFields]

theorem write_array_append (level : ℕ) (item : Json) (rest : List Json) (s : List Char) :
    write level (.array (item :: rest)) ++ s =
      '[' :: (newline (level + 1) ++ (item.write (level + 1) ++
        (writeItems (level + 1) rest ++ (newline level ++ ']' :: s)))) := by
  simp [write]

theorem write_object_append (level : ℕ) (name : String) (value : Json)
    (rest : List (String × Json)) (s : List Char) :
    write level (.object ((name, value) :: rest)) ++ s =
      '\x7b' :: (newline (level + 1) ++ (writeString name ++
        (':' :: ' ' :: (value.write (level + 1) ++
          (writeFields (level + 1) rest ++ (newline level ++ '\x7d' :: s)))))) := by
  simp [write]

theorem skip_writeString (name : String) (s : List Char) :
    skip (writeString name ++ s) = writeString name ++ s := by
  rw [writeString_append]
  exact skip_cons_of_isSpace_eq_false (by decide) _

theorem skip_write {value : Json} (h : IsPlain value) (level : ℕ) (s : List Char) :
    skip (value.write level ++ s) = value.write level ++ s := by
  obtain ⟨c, rest, heq, hspace, -⟩ := exists_write_eq_cons h level
  rw [heq]
  exact skip_cons_of_isSpace_eq_false hspace _

theorem skip_space_write {value : Json} (h : IsPlain value) (level : ℕ) (s : List Char) :
    skip (' ' :: (value.write level ++ s)) = value.write level ++ s :=
  (skip_space _).trans (skip_write h level s)

/-! ## Reading a whole value -/

/-- The value is read back from wherever it stands. -/
def ReadsBack (value : Json) : Prop :=
  ∀ (level : ℕ) (left : List Char), EndsNumber left →
    Reads (readValue (value.write level ++ left)) value left

theorem reads_readItems_write {item : Json} {rest : List Json}
    (hplain : ∀ other ∈ item :: rest, IsPlain other)
    (hback : ∀ other ∈ item :: rest, ReadsBack other) (level outer : ℕ) (left : List Char) :
    Reads (readItems (item.write level ++
      (writeItems level rest ++ (newline outer ++ ']' :: left)))) (item :: rest) left := by
  induction rest generalizing item with
  | nil =>
      refine reads_readItems_singleton (hback item List.mem_cons_self level _
        (endsNumber_newline outer (']' :: left))) ?_
      rw [writeItems, List.nil_append, skip_newline, skip_cons_of_isSpace_eq_false (by decide)]
  | cons next rest ih =>
      obtain ⟨-, hplainRest⟩ := List.forall_mem_cons.mp hplain
      obtain ⟨hitem, hbackRest⟩ := List.forall_mem_cons.mp hback
      rw [writeItems_cons_append]
      refine reads_readItems_cons (hitem level _ (endsNumber_cons _ (by decide)))
        (skip_cons_of_isSpace_eq_false (by decide) _) ?_
      rw [skip_newline, skip_write (List.forall_mem_cons.mp hplainRest).1]
      exact ih hplainRest hbackRest

theorem consField_of_notMem {name : String} {value : Json} {rest : List (String × Json)}
    (h : name ∉ rest.map Prod.fst) :
    consField (some name.toList) value rest = (name, value) :: rest := by
  have hne : ∀ field ∈ rest, field.1 ≠ name := by
    rintro field hfield rfl
    exact h (List.mem_map_of_mem hfield)
  have hlookup : rest.lookup name = none := by
    rw [List.lookup_eq_none_iff]
    intro field hfield
    exact bne_iff_ne.mpr (hne field hfield).symm
  have hfilter : rest.filter (·.1 ≠ name) = rest := by
    rw [List.filter_eq_self]
    intro field hfield
    exact decide_eq_true (hne field hfield)
  simp only [consField, String.ofList_toList, hlookup, hfilter, Option.getD_none]

theorem reads_readFields_write {name : String} {value : Json} {rest : List (String × Json)}
    (hnames : (name :: rest.map Prod.fst).Nodup)
    (hplain : ∀ other ∈ value :: rest.map Prod.snd, IsPlain other)
    (hback : ∀ other ∈ value :: rest.map Prod.snd, ReadsBack other) (level outer : ℕ)
    (left : List Char) :
    Reads (readFields (writeString name ++ (':' :: ' ' :: (value.write level ++
      (writeFields level rest ++ (newline outer ++ '\x7d' :: left)))))) ((name, value) :: rest)
      left := by
  induction rest generalizing name value with
  | nil =>
      have hvalue := hback value List.mem_cons_self level _
        (endsNumber_newline outer ('\x7d' :: left))
      rw [← skip_space_write (hplain value List.mem_cons_self)] at hvalue
      rw [← consField_of_notMem (List.nodup_cons.mp hnames).1, writeString_append]
      refine reads_readFields_singleton (reads_stringBody_flatMap _ _ _)
        (skip_cons_of_isSpace_eq_false (by decide) _) hvalue ?_
      rw [skip_newline, skip_cons_of_isSpace_eq_false (by decide)]
  | cons next rest ih =>
      obtain ⟨nextName, nextValue⟩ := next
      obtain ⟨hname, hnamesRest⟩ := List.nodup_cons.mp hnames
      obtain ⟨hplainValue, hplainRest⟩ := List.forall_mem_cons.mp hplain
      obtain ⟨hbackValue, hbackRest⟩ := List.forall_mem_cons.mp hback
      rw [← consField_of_notMem hname, writeString_append, writeFields_cons_append]
      -- the comma ends a number, and nothing between it and the colon is lost
      have hvalue (s : List Char) :
          Reads (readValue (skip (' ' :: (value.write level ++ ',' :: s)))) value (',' :: s) := by
        rw [skip_space_write hplainValue]
        exact hbackValue level _ (endsNumber_cons s (by decide))
      refine reads_readFields_cons (reads_stringBody_flatMap _ _ _)
        (skip_cons_of_isSpace_eq_false (by decide) _) (hvalue _)
        (skip_cons_of_isSpace_eq_false (by decide) _) ?_
      rw [skip_newline, skip_writeString]
      exact ih hnamesRest hplainRest hbackRest

theorem readsBack_null : ReadsBack .null := by
  intro level left hleft
  have hlength : "null".length = 4 := rfl
  have hscalar : scalar ('n' :: (['u', 'l', 'l'] ++ left)) = .ok (.null, left) := by
    simp [scalar, literals, List.isPrefixOf, hlength]
  exact reads_readValue_scalar (by decide) hscalar

theorem readsBack_bool (b : Bool) : ReadsBack (.bool b) := by
  intro level left hleft
  cases b with
  | false =>
      have hlength : "false".length = 5 := rfl
      have hscalar : scalar ('f' :: (['a', 'l', 's', 'e'] ++ left)) = .ok (.bool false, left) := by
        simp [scalar, literals, List.isPrefixOf, hlength]
      exact reads_readValue_scalar (by decide) hscalar
  | true =>
      have hlength : "true".length = 4 := rfl
      have hscalar : scalar ('t' :: (['r', 'u', 'e'] ++ left)) = .ok (.bool true, left) := by
        simp [scalar, literals, List.isPrefixOf, hlength]
      exact reads_readValue_scalar (by decide) hscalar

theorem readsBack_int {n : ℤ} (h : HasFewDigits n.natAbs) : ReadsBack (.int n) := by
  intro level left hleft
  have hscalar := scalar_toString h hleft
  rw [write]
  obtain ⟨c, digits, hc, heq | heq⟩ := toString_int_cases n
  · rw [heq] at hscalar ⊢
    refine reads_readValue_scalar ⟨?_, ?_, ?_⟩ hscalar <;> (rintro rfl; contradiction)
  · rw [heq] at hscalar ⊢
    exact reads_readValue_scalar (by decide) hscalar

theorem readsBack_string (s : String) : ReadsBack (.string s) := by
  intro level left hleft
  have hstring := reads_readValue_string (reads_stringBody_flatMap
    ('"' :: (s.toList.flatMap escapeChar ++ '"' :: left)) s.toList left)
  rw [String.ofList_toList] at hstring
  rw [write, writeString_append]
  exact hstring

/-- Every plain value is read back. -/
theorem IsPlain.readsBack {value : Json} (h : IsPlain value) : ReadsBack value := by
  induction h with
  | null => exact readsBack_null
  | bool b => exact readsBack_bool b
  | int h => exact readsBack_int h
  | string s => exact readsBack_string s
  | @array items h ih =>
      intro level left hleft
      -- the brackets of nothing stand on one line, those of anything else on lines of their own
      cases items with
      | nil => exact reads_readValue_array_nil (skip_cons_of_isSpace_eq_false (by decide) left)
      | cons item rest =>
          have hitem := h item List.mem_cons_self
          rw [write_array_append]
          refine reads_readValue_array ?_ ?_
          · intro other
            rw [skip_newline, skip_write hitem]
            obtain ⟨c, s, heq, -, hc, -⟩ := exists_write_eq_cons hitem (level + 1)
            rw [heq]
            exact fun hend => hc (List.cons.inj hend).1
          · rw [skip_newline, skip_write hitem]
            exact reads_readItems_write h ih (level + 1) level left
  | @object fields hnames h ih =>
      intro level left hleft
      cases fields with
      | nil => exact reads_readValue_object_nil (skip_cons_of_isSpace_eq_false (by decide) left)
      | cons field rest =>
          obtain ⟨name, value⟩ := field
          rw [write_object_append]
          refine reads_readValue_object ?_ ?_
          · intro other
            rw [skip_newline, skip_writeString, writeString_append]
            simp
          · rw [skip_newline, skip_writeString]
            exact reads_readFields_write hnames h ih (level + 1) level left

/-- What is written of a plain value is the text of that value. -/
theorem parse_render {value : Json} (h : IsPlain value) : parse value.render = .ok value := by
  have hread := h.readsBack 0 [] (by simp [EndsNumber])
  rw [← skip_write h, List.append_nil] at hread
  obtain ⟨hlength, hvalue⟩ := hread
  obtain ⟨c, s, heq, -, -, hmark⟩ := exists_write_eq_cons h 0
  have hchars : parseChars (value.write 0) = .ok value := by
    rw [parseChars, hvalue]
    · rfl
    · intro rest hrest
      rw [heq] at hrest
      exact hmark (List.cons.inj hrest).1
  rw [parse, render, String.toList_ofList, hchars]
  rfl

end MethodSig.Json
