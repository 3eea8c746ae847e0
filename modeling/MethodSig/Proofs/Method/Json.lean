import MethodSig.Proofs.Json.RoundTrip
import MethodSig.Proofs.Method.Adapter

/-!
# Batches that were written are read back

A batch is written exactly if its dimensions are numbers that can be written and its descriptors are
within the limit of the adapter, and it is then what its text says. Both are always so of a batch
that was read from a text.
-/

namespace MethodSig

open Json (HasFewDigits HasShortNumbers IsPlain)

/-! ## Plain values -/

theorem Json.IsPlain.hasShortNumbers {value : Json} (h : IsPlain value) :
    HasShortNumbers value := by
  induction h with
  | null => exact .null
  | bool b => exact .bool b
  | int h => exact .int h
  | string s => exact .string s
  | array _ ih => exact .array ih
  | object _ _ ih => exact .object ih

theorem isPlain_ofText? (s : Option String) : IsPlain (.ofText? s) := by
  cases s with
  | none => exact .null
  | some s => exact .string s

theorem isPlain_array_map {α : Type} {write : α → Json} {items : List α}
    (h : ∀ a ∈ items, IsPlain (write a)) : IsPlain (.array (items.map write)) :=
  .array (List.forall_mem_map.mpr h)

theorem Descriptor.isPlain_toJson {d : Descriptor} (h : d.HasShortDimensions) :
    IsPlain d.toJson := by
  induction d using toJson.induct with
  | case1 kind name dimensions =>
      rw [toJson]
      refine .object (by simp) ?_
      simp only [List.map_cons, List.map_nil, List.forall_mem_cons]
      exact ⟨.string _, .string _, .null, .int h, by simp⟩
  | case2 kind name component dimensions ih =>
      rw [toJson]
      refine .object (by simp) ?_
      simp only [List.map_cons, List.map_nil, List.forall_mem_cons]
      exact ⟨.string _, .string _, ih h.1, .int h.2, by simp⟩

theorem Argument.isPlain_toJson {a : Argument} (h : a.type.HasShortDimensions) :
    IsPlain a.toJson := by
  refine .object (by simp) ?_
  simp only [List.map_cons, List.map_nil, List.forall_mem_cons]
  exact ⟨.string _, Descriptor.isPlain_toJson h, by simp⟩

theorem Member.isPlain_toJson {m : Member} (h : ∀ d ∈ m.parameterTypes, d.HasShortDimensions) :
    IsPlain m.toJson := by
  refine .object (by simp) ?_
  simp only [List.map_cons, List.map_nil, List.forall_mem_cons]
  exact ⟨.string _, .string _,
    isPlain_array_map fun d hd => Descriptor.isPlain_toJson (h d hd), isPlain_ofText? _, .bool _,
    by simp⟩

theorem Method.isPlain_toJson {m : Method} (h : m.HasShortDimensions) : IsPlain m.toJson := by
  obtain ⟨hresult, hrest⟩ := List.forall_mem_cons.mp h
  obtain ⟨harguments, hparameters⟩ := List.forall_mem_append.mp hrest
  refine .object (by simp) ?_
  simp only [List.map_cons, List.map_nil, List.forall_mem_cons]
  refine ⟨.string _, Descriptor.isPlain_toJson hresult, ?_, Member.isPlain_toJson hparameters,
    isPlain_ofText? _, by simp⟩
  exact isPlain_array_map fun a ha =>
    Argument.isPlain_toJson (harguments a.type (List.mem_map_of_mem ha))

theorem isPlain_batch {methods : List Method} (h : ∀ m ∈ methods, m.HasShortDimensions) :
    IsPlain (.array (methods.map Method.toJson)) :=
  isPlain_array_map fun m hm => Method.isPlain_toJson (h m hm)

/-! ## Dimensions of what can be written -/

theorem hasFewDigits_of_int {n : ℕ} (h : HasShortNumbers (.int n)) : HasFewDigits n := by
  cases h with
  | int hfew => exact hfew

theorem Descriptor.hasShortDimensions_of_toJson {d : Descriptor} (h : HasShortNumbers d.toJson) :
    d.HasShortDimensions := by
  induction d using toJson.induct with
  | case1 kind name dimensions =>
      rw [toJson] at h
      exact hasFewDigits_of_int (h.of_lookup "dimensions" rfl)
  | case2 kind name component dimensions ih =>
      rw [toJson] at h
      exact ⟨ih (h.of_lookup "component" rfl),
        hasFewDigits_of_int (h.of_lookup "dimensions" rfl)⟩

theorem Method.hasShortDimensions_of_toJson {m : Method} (h : HasShortNumbers m.toJson) :
    m.HasShortDimensions := by
  have hmember := h.of_lookup "member" rfl
  have hparameters := hmember.of_lookup "parameter_types" rfl
  have harguments := h.of_lookup "arguments" rfl
  refine List.forall_mem_cons.mpr ⟨?_, List.forall_mem_append.mpr ⟨?_, ?_⟩⟩
  · exact Descriptor.hasShortDimensions_of_toJson (h.of_lookup "result_type" rfl)
  · refine List.forall_mem_map.mpr fun a ha => ?_
    have hargument : HasShortNumbers a.toJson := harguments.of_mem (List.mem_map_of_mem ha)
    exact Descriptor.hasShortDimensions_of_toJson (hargument.of_lookup "type" rfl)
  · intro d hd
    exact Descriptor.hasShortDimensions_of_toJson (hparameters.of_mem (List.mem_map_of_mem hd))

/-! ## Writing and reading -/

section Adapter

variable {adapter : BatchAdapter} {limit : ℕ} {methods : List Method} {text : String}

/-- Within both limits the text of a batch is that of its fields. -/
theorem serialize_eq_ok (h : adapter.IsFaithful limit)
    (hmethods : ∀ m ∈ methods, m.IsWithin limit ∧ m.HasShortDimensions) :
    serialize adapter methods = .ok (Json.array (methods.map Method.toJson)).render := by
  have hplain := isPlain_batch fun m hm => (hmethods m hm).2
  rw [serialize, h.dump_eq_ok fun m hm => (hmethods m hm).1]
  change (Json.print _).mapError _ = _
  rw [Json.print, if_pos ((Json.isWritable_iff _).mpr hplain.hasShortNumbers)]
  rfl

/-- A batch that is written is within both limits. -/
theorem isWithin_of_serialize (h : adapter.IsFaithful limit)
    (hwritten : serialize adapter methods = .ok text) :
    ∀ m ∈ methods, m.IsWithin limit ∧ m.HasShortDimensions := by
  rw [serialize] at hwritten
  by_cases hlimit : ∀ m ∈ methods, m.IsWithin limit
  · rw [h.dump_eq_ok hlimit] at hwritten
    change (Json.print _).mapError _ = _ at hwritten
    rw [Json.print] at hwritten
    split at hwritten
    next hwritable =>
      have hshort := (Json.isWritable_iff _).mp hwritable
      exact fun m hm => ⟨hlimit m hm,
        Method.hasShortDimensions_of_toJson (hshort.of_mem (List.mem_map_of_mem hm))⟩
    next => cases hwritten
  · simp only [not_forall] at hlimit
    obtain ⟨m, hm, hbeyond⟩ := hlimit
    obtain ⟨reason, hreason⟩ := h.dump_eq_error ⟨m, hm, hbeyond⟩
    rw [hreason] at hwritten
    cases hwritten

/-- The limits of the adapter and of numbers are all that a batch may be refused for. -/
theorem exists_serialize_eq_ok_iff (h : adapter.IsFaithful limit) :
    (∃ text, serialize adapter methods = .ok text) ↔
      ∀ m ∈ methods, m.IsWithin limit ∧ m.HasShortDimensions := by
  constructor
  · rintro ⟨text, hwritten⟩
    exact isWithin_of_serialize h hwritten
  · intro hmethods
    exact ⟨_, serialize_eq_ok h hmethods⟩

theorem deserialize_of_parse {value : Json} (h : Json.parse text = .ok value) :
    deserialize adapter text = batchOfJson adapter value := by
  rw [deserialize, h]

theorem deserialize_of_serialize (h : adapter.IsFaithful limit)
    (hwritten : serialize adapter methods = .ok text) :
    deserialize adapter text = .ok methods := by
  have hmethods := isWithin_of_serialize h hwritten
  rw [serialize_eq_ok h hmethods] at hwritten
  obtain rfl := Except.ok.inj hwritten
  have hplain := isPlain_batch fun m hm => (hmethods m hm).2
  have hvalid := h.validate_eq_ok (describesBatch_toJson methods) fun m hm => (hmethods m hm).1
  rw [deserialize_of_parse (Json.parse_render hplain), batchOfJson, hvalid]
  rfl

/-- A batch that was read is within both limits. -/
theorem isWithin_of_deserialize (h : adapter.IsFaithful limit)
    (hread : deserialize adapter text = .ok methods) :
    ∀ m ∈ methods, m.IsWithin limit ∧ m.HasShortDimensions := by
  unfold deserialize at hread
  split at hread
  next value hvalue =>
    rw [batchOfJson] at hread
    cases hvalid : adapter.validate value with
    | ok others =>
        rw [hvalid] at hread
        obtain rfl := Except.ok.inj hread
        have hshort := Json.hasShortNumbers_of_parse hvalue
        exact fun m hm => ⟨h.isWithin_of_validate hvalid m hm,
          h.hasShortDimensions_of_validate hshort hvalid m hm⟩
    | error complaints =>
        rw [hvalid] at hread
        cases hread
  next => cases hread
  next => cases hread

end Adapter

/-- A method of names that need escapes or more than one byte. -/
def quoted : Method :=
  ⟨"\"\\\n", ⟨.array, "é[]", some (.named "é"), 1⟩, [], ⟨"T", "\"", [], none, false⟩, none⟩

end MethodSig
