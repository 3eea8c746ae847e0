import MethodSig.Proofs.Json.Number

/-!
# Numbers that can be read

No whole number of too many digits is ever read. What the readers of values, of items and of fields
have in common is proved of all of them at once, by induction on the length of the text.
-/

namespace MethodSig.Json

/-- No whole number in the value has too many digits. -/
inductive HasShortNumbers : Json → Prop where
  | null : HasShortNumbers .null
  | bool (b : Bool) : HasShortNumbers (.bool b)
  | int {n : ℤ} (h : HasFewDigits n.natAbs) : HasShortNumbers (.int n)
  | float (x : Binary64) : HasShortNumbers (.float x)
  | string (s : String) : HasShortNumbers (.string s)
  | brokenString : HasShortNumbers .brokenString
  | array {items : List Json} (h : ∀ item ∈ items, HasShortNumbers item) :
      HasShortNumbers (.array items)
  | object {fields : List (String × Json)}
      (h : ∀ value ∈ fields.map Prod.snd, HasShortNumbers value) :
      HasShortNumbers (.object fields)

mutual

/-- What is written has no numbers of too many digits. -/
theorem isWritable_iff : (value : Json) → (value.isWritable = true ↔ HasShortNumbers value)
  | .null => iff_of_true rfl .null
  | .bool b => iff_of_true rfl (.bool b)
  | .int n => by
      rw [isWritable, decide_eq_true_iff]
      constructor
      · exact .int
      · intro h
        cases h with
        | int hfew => exact hfew
  | .float x => iff_of_true rfl (.float x)
  | .string s => iff_of_true rfl (.string s)
  | .brokenString => iff_of_true rfl .brokenString
  | .array items => by
      rw [isWritable, areWritable_iff items]
      constructor
      · exact .array
      · intro h
        cases h with
        | array hitems => exact hitems
  | .object fields => by
      rw [isWritable, haveWritableValues_iff fields]
      constructor
      · exact .object
      · intro h
        cases h with
        | object hfields => exact hfields

theorem areWritable_iff : (items : List Json) →
    (areWritable items = true ↔ ∀ item ∈ items, HasShortNumbers item)
  | [] => by simp [areWritable]
  | item :: rest => by
      rw [areWritable, Bool.and_eq_true, isWritable_iff item, areWritable_iff rest,
        List.forall_mem_cons]

theorem haveWritableValues_iff : (fields : List (String × Json)) →
    (haveWritableValues fields = true ↔ ∀ value ∈ fields.map Prod.snd, HasShortNumbers value)
  | [] => by simp [haveWritableValues]
  | (name, value) :: rest => by
      rw [haveWritableValues, Bool.and_eq_true, isWritable_iff value, haveWritableValues_iff rest,
        List.map_cons, List.forall_mem_cons]

end

/-! ## Numbers and words -/

theorem isDigit_of_mem_wholeDigits {s : List Char} {c : Char} (h : c ∈ (wholeDigits s).1) :
    c.isDigit = true := by
  unfold wholeDigits at h
  split at h
  · rw [List.mem_singleton.mp h]
    decide
  · exact List.mem_takeWhile_imp h

section Scalar

variable {s left : List Char} {value : Json}

theorem hasShortNumbers_of_number (h : number s = .ok (value, left)) : HasShortNumbers value := by
  simp only [number] at h
  generalize (if s.head? = some '-' then s.drop 1 else s) = unsigned at h
  split at h
  next => contradiction
  next =>
    split at h
    next =>
      split at h
      next => contradiction
      next hshort =>
        obtain ⟨rfl, -⟩ := Prod.mk.inj (Except.ok.inj h)
        have hfew := hasFewDigits_decimal (fun c hc => isDigit_of_mem_wholeDigits hc)
          (Nat.not_lt.mp hshort)
        refine .int ?_
        split
        · simpa using hfew
        · simpa using hfew
    next =>
      obtain ⟨rfl, -⟩ := Prod.mk.inj (Except.ok.inj h)
      exact .float _

theorem hasShortNumbers_of_mem_literals {word : String} (h : (word, value) ∈ literals) :
    HasShortNumbers value := by
  simp only [literals, List.mem_cons, Prod.mk.injEq, List.not_mem_nil, or_false] at h
  rcases h with ⟨-, rfl⟩ | ⟨-, rfl⟩ | ⟨-, rfl⟩ | ⟨-, rfl⟩ | ⟨-, rfl⟩ | ⟨-, rfl⟩
  · exact .null
  · exact .bool true
  · exact .bool false
  · exact .float _
  · exact .float _
  · exact .float _

theorem hasShortNumbers_of_scalar (h : scalar s = .ok (value, left)) : HasShortNumbers value := by
  rw [scalar] at h
  split at h
  next hword =>
    obtain ⟨rfl, -⟩ := Prod.mk.inj (Except.ok.inj h)
    exact hasShortNumbers_of_mem_literals (List.mem_of_find?_eq_some hword)
  next => exact hasShortNumbers_of_number h

end Scalar

/-! ## Values, items and fields -/

theorem mem_of_lookup_eq_some {name : String} {value : Json} {fields : List (String × Json)}
    (h : fields.lookup name = some value) : value ∈ fields.map Prod.snd := by
  obtain ⟨before, behind, rfl, -⟩ := List.lookup_eq_some_iff.mp h
  simp

theorem HasShortNumbers.of_lookup {value : Json} {fields : List (String × Json)}
    (h : HasShortNumbers (.object fields)) (name : String)
    (hlookup : fields.lookup name = some value) : HasShortNumbers value := by
  cases h with
  | object hfields => exact hfields value (mem_of_lookup_eq_some hlookup)

theorem HasShortNumbers.of_mem {items : List Json} (h : HasShortNumbers (.array items))
    {item : Json} (hitem : item ∈ items) : HasShortNumbers item := by
  cases h with
  | array hitems => exact hitems item hitem

theorem hasShortNumbers_consField {name : Option (List Char)} {value : Json}
    {rest : List (String × Json)} (hvalue : HasShortNumbers value)
    (hrest : ∀ other ∈ rest.map Prod.snd, HasShortNumbers other) :
    ∀ other ∈ (consField name value rest).map Prod.snd, HasShortNumbers other := by
  cases name with
  | none => exact hrest
  | some name =>
      rw [consField, List.map_cons]
      refine List.forall_mem_cons.mpr ⟨?_, ?_⟩
      · cases hlookup : rest.lookup (String.ofList name) with
        | none => exact hvalue
        | some other => exact hrest other (mem_of_lookup_eq_some hlookup)
      · intro other hother
        exact hrest other ((List.filter_sublist.map Prod.snd).subset hother)

/-- Nothing that is read off the text has a number of too many digits. -/
structure ReadsShortNumbers (s : List Char) : Prop where
  value {value : Json} {left : Rest s} (h : readValue s = .ok (value, left)) :
    HasShortNumbers value
  items {items : List Json} {left : Rest s} (h : readItems s = .ok (items, left)) :
    ∀ item ∈ items, HasShortNumbers item
  fields {fields : List (String × Json)} {left : Rest s}
    (h : readFields s = .ok (fields, left)) : ∀ value ∈ fields.map Prod.snd, HasShortNumbers value

section Step

variable {s : List Char}

theorem hasShortNumbers_of_readValue (ih : ∀ s', s'.length < s.length → ReadsShortNumbers s')
    {value : Json} {left : Rest s} (h : readValue s = .ok (value, left)) :
    HasShortNumbers value := by
  rw [readValue.eq_def] at h
  split at h
  next rest =>
    split at h
    next => contradiction
    next text r hr htext =>
      obtain ⟨rfl, -⟩ := Prod.mk.inj (Except.ok.inj h)
      cases text with
      | none => exact .brokenString
      | some text => exact .string _
  next rest =>
    have hskip := ih (skip rest) (Nat.lt_succ_of_le (length_skip_le rest))
    split at h
    next =>
      obtain ⟨rfl, -⟩ := Prod.mk.inj (Except.ok.inj h)
      exact .array (by simp)
    next =>
      split at h
      next => contradiction
      next hitems =>
        obtain ⟨rfl, -⟩ := Prod.mk.inj (Except.ok.inj h)
        exact .array (hskip.items hitems)
  next rest =>
    have hskip := ih (skip rest) (Nat.lt_succ_of_le (length_skip_le rest))
    split at h
    next =>
      obtain ⟨rfl, -⟩ := Prod.mk.inj (Except.ok.inj h)
      exact .object (by simp)
    next =>
      split at h
      next => contradiction
      next hfields =>
        obtain ⟨rfl, -⟩ := Prod.mk.inj (Except.ok.inj h)
        exact .object (hskip.fields hfields)
  next =>
    split at h
    next => contradiction
    next hscalar =>
      split at h
      next =>
        obtain ⟨rfl, -⟩ := Prod.mk.inj (Except.ok.inj h)
        exact hasShortNumbers_of_scalar hscalar
      next => contradiction

theorem hasShortNumbers_of_readItems (ih : ∀ s', s'.length < s.length → ReadsShortNumbers s')
    {items : List Json} {left : Rest s} (h : readItems s = .ok (items, left)) :
    ∀ item ∈ items, HasShortNumbers item := by
  rw [readItems] at h
  split at h
  next => contradiction
  next item r hr hitem =>
    have hshort := hasShortNumbers_of_readValue ih hitem
    have hskip := length_skip_le r
    dsimp only at h
    split at h
    next =>
      obtain ⟨rfl, -⟩ := Prod.mk.inj (Except.ok.inj h)
      exact List.forall_mem_singleton.mpr hshort
    next more hcomma =>
      have hskip' := length_skip_le more
      rw [hcomma, List.length_cons] at hskip
      split at h
      next => contradiction
      next hitems =>
        obtain ⟨rfl, -⟩ := Prod.mk.inj (Except.ok.inj h)
        exact List.forall_mem_cons.mpr ⟨hshort, (ih _ (by omega)).items hitems⟩
    next => contradiction

theorem hasShortNumbers_of_readFields (ih : ∀ s', s'.length < s.length → ReadsShortNumbers s')
    {fields : List (String × Json)} {left : Rest s} (h : readFields s = .ok (fields, left)) :
    ∀ value ∈ fields.map Prod.snd, HasShortNumbers value := by
  rw [readFields.eq_def] at h
  split at h
  next rest =>
    split at h
    next => contradiction
    next name afterName hname hstring =>
      have hskipName := length_skip_le afterName
      split at h
      next colonLeft hcolon =>
        have hskipColon := length_skip_le colonLeft
        rw [hcolon, List.length_cons] at hskipName
        split at h
        next => contradiction
        next value afterValue hvalue hread =>
          have hshort := (ih _ (by rw [List.length_cons]; omega)).value hread
          have hskipValue := length_skip_le afterValue
          dsimp only at h
          split at h
          next =>
            obtain ⟨rfl, -⟩ := Prod.mk.inj (Except.ok.inj h)
            exact hasShortNumbers_consField hshort (by simp)
          next commaLeft hcomma =>
            have hskipComma := length_skip_le commaLeft
            rw [hcomma, List.length_cons] at hskipValue
            split at h
            next => contradiction
            next hfields =>
              obtain ⟨rfl, -⟩ := Prod.mk.inj (Except.ok.inj h)
              exact hasShortNumbers_consField hshort
                ((ih _ (by rw [List.length_cons]; omega)).fields hfields)
          next => contradiction
      next => contradiction
  next => contradiction

end Step

theorem readsShortNumbers (s : List Char) : ReadsShortNumbers s := by
  -- items and fields begin with a value at the same place, all else they read is shorter
  induction hlength : s.length using Nat.strong_induction_on generalizing s with
  | h n ih =>
      have hshorter : ∀ s', s'.length < s.length → ReadsShortNumbers s' :=
        fun s' hs' => ih s'.length (hlength ▸ hs') s' rfl
      exact ⟨hasShortNumbers_of_readValue hshorter, hasShortNumbers_of_readItems hshorter,
        hasShortNumbers_of_readFields hshorter⟩

/-- A text is read as a value without numbers of too many digits. -/
theorem hasShortNumbers_of_parse {text : String} {value : Json} (h : parse text = .ok value) :
    HasShortNumbers value := by
  unfold parse parseChars at h
  split at h
  next => contradiction
  next =>
    split at h
    next => contradiction
    next hvalue =>
      split at h
      next =>
        obtain rfl := Except.ok.inj h
        exact (readsShortNumbers _).value hvalue
      next => contradiction

end MethodSig.Json
