import Mathlib.Data.List.Forall2
import MethodSig.Proofs.Validation.Scalar
import MethodSig.Validation.Record

/-!
# Checked records

What a record is taken from: each part of it comes from a field that passed its check, or is the
default of a field that is absent. So whatever a check ensures of descriptors, it ensures of all
descriptors that a method holds.
-/

namespace MethodSig.Validation

open Json (HasFewDigits HasShortNumbers)

section Parts

variable {α : Type} {check : Json → Checked α} {fields : List (String × Json)} {name : String}

theorem record_eq_valid {type : String} {check : List (String × Json) → Checked α} {value : Json}
    {a : α} (h : record type check value = .valid a) :
    ∃ fields, value = .object fields ∧ check fields = .valid a := by
  cases value with
  | object fields => exact ⟨fields, rfl, h⟩
  | _ => cases h

theorem required_eq_valid {a : α} (h : required fields name check = .valid a) :
    ∃ value, fields.lookup name = some value ∧ check value = .valid a := by
  rw [required] at h
  split at h
  next value hlookup => exact ⟨value, hlookup, Checked.under_eq_valid h⟩
  next => cases h

theorem optional_eq_valid {default a : α} (h : optional fields name default check = .valid a) :
    a = default ∨ ∃ value, fields.lookup name = some value ∧ check value = .valid a := by
  rw [optional] at h
  split at h
  next value hlookup => exact Or.inr ⟨value, hlookup, Checked.under_eq_valid h⟩
  next =>
    cases h
    exact Or.inl rfl

theorem nullable_eq_valid {value : Json} {a : Option α} (h : nullable check value = .valid a) :
    ∀ b ∈ a, check value = .valid b := by
  intro b hb
  unfold nullable at h
  split at h
  next =>
    cases h
    cases hb
  next =>
    obtain ⟨c, hcheck, rfl⟩ := Checked.map_eq_valid h
    cases hb
    exact hcheck

theorem itemsFrom_eq_valid {n : ℕ} {items : List Json} {as : List α}
    (h : itemsFrom check n items = .valid as) :
    ∀ a ∈ as, ∃ item ∈ items, check item = .valid a := by
  induction items generalizing n as with
  | nil =>
      cases h
      simp
  | cons item rest ih =>
      obtain ⟨_, others, hfirst, hrest, rfl⟩ := Checked.seq_eq_valid h
      obtain ⟨a, hitem, rfl⟩ := Checked.map_eq_valid hfirst
      refine List.forall_mem_cons.mpr ⟨?_, ?_⟩
      · exact ⟨item, List.mem_cons_self, Checked.under_eq_valid hitem⟩
      · intro b hb
        obtain ⟨other, hother, hcheck⟩ := ih hrest b hb
        exact ⟨other, List.mem_cons_of_mem _ hother, hcheck⟩

/-- Items pass a check one by one, each as what it is related to. -/
theorem itemsFrom_of_forall₂ {R : Json → α → Prop} {items : List Json} {as : List α}
    (h : List.Forall₂ R items as) (hcheck : ∀ item, ∀ a ∈ as, R item a → check item = .valid a)
    (n : ℕ) : itemsFrom check n items = .valid as := by
  induction h generalizing n with
  | nil => rfl
  | cons hfirst _ ih =>
      have hrest := ih fun item a ha => hcheck item a (List.mem_cons_of_mem _ ha)
      rw [itemsFrom, hcheck _ _ List.mem_cons_self hfirst, hrest]
      rfl

@[simp] theorem tuple_nil : tuple check (.array []) = .valid [] := rfl

@[simp] theorem nullable_null : nullable check .null = .valid none := rfl

end Parts

/-! ## What a check ensures -/

/-- A property that goes over from a value to its parts. -/
structure Hereditary (Q : Json → Prop) : Prop where
  of_lookup {fields : List (String × Json)} {name : String} {value : Json}
    (h : Q (.object fields)) (hlookup : fields.lookup name = some value) : Q value
  of_mem {items : List Json} {item : Json} (h : Q (.array items)) (hitem : item ∈ items) : Q item

theorem hereditary_true : Hereditary fun _ => True :=
  ⟨fun _ _ => trivial, fun _ _ => trivial⟩

theorem hereditary_hasShortNumbers : Hereditary HasShortNumbers :=
  ⟨fun h hlookup => h.of_lookup _ hlookup, fun h hitem => h.of_mem hitem⟩

section Ensures

variable {α : Type} {Q : Json → Prop} {check : Json → Checked α} {P : α → Prop}

/-- Whatever the check takes from a value with the first property has the second one. -/
def Ensures (Q : Json → Prop) (check : Json → Checked α) (P : α → Prop) : Prop :=
  ∀ (value : Json) (a : α), Q value → check value = .valid a → P a

theorem Ensures.required (hcheck : Ensures Q check P) (hQ : Hereditary Q)
    {fields : List (String × Json)} (hfields : Q (.object fields)) {name : String} {a : α}
    (h : required fields name check = .valid a) : P a := by
  obtain ⟨value, hlookup, hvalue⟩ := required_eq_valid h
  exact hcheck value a (hQ.of_lookup hfields hlookup) hvalue

theorem Ensures.optional (hcheck : Ensures Q check P) (hQ : Hereditary Q)
    {fields : List (String × Json)} (hfields : Q (.object fields)) {name : String} {default a : α}
    (hdefault : P default) (h : optional fields name default check = .valid a) : P a := by
  rcases optional_eq_valid h with rfl | ⟨value, hlookup, hvalue⟩
  · exact hdefault
  · exact hcheck value a (hQ.of_lookup hfields hlookup) hvalue

theorem Ensures.itemsFrom (hcheck : Ensures Q check P) (hQ : Hereditary Q) {items : List Json}
    (hitems : Q (.array items)) {n : ℕ} {as : List α} (h : itemsFrom check n items = .valid as) :
    ∀ a ∈ as, P a := by
  intro a ha
  obtain ⟨item, hitem, ha⟩ := itemsFrom_eq_valid h a ha
  exact hcheck item a (hQ.of_mem hitems hitem) ha

theorem Ensures.tuple (hcheck : Ensures Q check P) (hQ : Hereditary Q) :
    Ensures Q (tuple check) fun as => ∀ a ∈ as, P a := by
  intro value as hvalue h
  cases value with
  | array items => exact hcheck.itemsFrom hQ hvalue h
  | _ => cases h

theorem Ensures.list (hcheck : Ensures Q check P) (hQ : Hereditary Q) :
    Ensures Q (list check) fun as => ∀ a ∈ as, P a := by
  intro value as hvalue h
  cases value with
  | array items => exact hcheck.itemsFrom hQ hvalue h
  | _ => cases h

end Ensures

theorem ensures_natural : Ensures HasShortNumbers natural HasFewDigits :=
  fun _ _ => hasFewDigits_of_natural

/-! ## Descriptors and what holds them -/

theorem descriptorWithin_eq_valid {limit : ℕ} {value : Json} {d : Descriptor}
    (h : descriptorWithin limit value = .valid d) :
    ∃ levels fields, limit = levels + 1 ∧ value = .object fields ∧
      optional fields "component" none (nullable (descriptorWithin levels)) =
        .valid d.component ∧
      optional fields "dimensions" 0 natural = .valid d.dimensions := by
  cases limit with
  | zero => cases h
  | succ levels =>
      obtain ⟨fields, rfl, h⟩ := record_eq_valid h
      obtain ⟨_, dimensions, h₁, hdimensions, rfl⟩ := Checked.seq_eq_valid h
      obtain ⟨_, component, h₂, hcomponent, rfl⟩ := Checked.seq_eq_valid h₁
      obtain ⟨_, name, h₃, -, rfl⟩ := Checked.seq_eq_valid h₂
      obtain ⟨kind, -, rfl⟩ := Checked.map_eq_valid h₃
      exact ⟨levels, fields, rfl, rfl, hcomponent, hdimensions⟩

/-- A component that was taken comes from a field, for its default is none. -/
theorem component_eq_valid {limit : ℕ} {fields : List (String × Json)} {component : Descriptor}
    (h : optional fields "component" none (nullable (descriptorWithin limit)) =
      .valid (some component)) :
    ∃ inner, fields.lookup "component" = some inner ∧
      descriptorWithin limit inner = .valid component := by
  rcases optional_eq_valid h with habsent | ⟨inner, hlookup, hinner⟩
  · cases habsent
  · exact ⟨inner, hlookup, nullable_eq_valid hinner component rfl⟩

theorem ensures_levels_le (limit : ℕ) :
    Ensures (fun _ => True) (descriptorWithin limit) fun d => d.levels ≤ limit := by
  intro value d _ h
  induction limit generalizing value d with
  | zero => cases h
  | succ levels ih =>
      obtain ⟨_, fields, heq, rfl, hcomponent, -⟩ := descriptorWithin_eq_valid h
      obtain rfl := Nat.succ.inj heq
      obtain ⟨kind, name, component, dimensions⟩ := d
      cases component with
      | none => exact Nat.succ_le_succ (Nat.zero_le levels)
      | some component =>
          obtain ⟨inner, -, hinner⟩ := component_eq_valid hcomponent
          exact Nat.succ_le_succ (ih inner component hinner)

/-- If a check ensures something of descriptors, it ensures it of all that an argument holds. -/
theorem ensures_argument {Q : Json → Prop} {P : Descriptor → Prop} (hQ : Hereditary Q)
    (hdescriptor : Ensures Q descriptor P) : Ensures Q argument fun a => P a.type := by
  intro value a hvalue h
  obtain ⟨fields, rfl, h⟩ := record_eq_valid h
  obtain ⟨_, type, h₁, htype, rfl⟩ := Checked.seq_eq_valid h
  obtain ⟨name, -, rfl⟩ := Checked.map_eq_valid h₁
  exact hdescriptor.required hQ hvalue htype

theorem ensures_member {Q : Json → Prop} {P : Descriptor → Prop} (hQ : Hereditary Q)
    (hdescriptor : Ensures Q descriptor P) :
    Ensures Q member fun m => ∀ d ∈ m.parameterTypes, P d := by
  intro value m hvalue h
  obtain ⟨fields, rfl, h⟩ := record_eq_valid h
  obtain ⟨_, isStatic, h₁, -, rfl⟩ := Checked.seq_eq_valid h
  obtain ⟨_, returnType, h₂, -, rfl⟩ := Checked.seq_eq_valid h₁
  obtain ⟨_, parameterTypes, h₃, hparameters, rfl⟩ := Checked.seq_eq_valid h₂
  obtain ⟨_, name, h₄, -, rfl⟩ := Checked.seq_eq_valid h₃
  obtain ⟨owner, -, rfl⟩ := Checked.map_eq_valid h₄
  exact (hdescriptor.tuple hQ).optional hQ hvalue (by simp) hparameters

theorem ensures_method {Q : Json → Prop} {P : Descriptor → Prop} (hQ : Hereditary Q)
    (hdescriptor : Ensures Q descriptor P) :
    Ensures Q method fun m => ∀ d ∈ m.descriptors, P d := by
  intro value m hvalue h
  obtain ⟨fields, rfl, h⟩ := record_eq_valid h
  obtain ⟨_, uniqueName, h₁, -, rfl⟩ := Checked.seq_eq_valid h
  obtain ⟨_, bound, h₂, hmember, rfl⟩ := Checked.seq_eq_valid h₁
  obtain ⟨_, arguments, h₃, harguments, rfl⟩ := Checked.seq_eq_valid h₂
  obtain ⟨_, resultType, h₄, hresult, rfl⟩ := Checked.seq_eq_valid h₃
  obtain ⟨name, -, rfl⟩ := Checked.map_eq_valid h₄
  refine List.forall_mem_cons.mpr ⟨hdescriptor.required hQ hvalue hresult, ?_⟩
  refine List.forall_mem_append.mpr ⟨?_, (ensures_member hQ hdescriptor).required hQ hvalue hmember⟩
  have hargument : Ensures Q argument fun a => P a.type := ensures_argument hQ hdescriptor
  exact List.forall_mem_map.mpr
    ((hargument.tuple hQ).optional hQ hvalue (by simp) harguments)

end MethodSig.Validation
