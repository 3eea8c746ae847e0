import MethodSig.Method.Adapter
import MethodSig.Proofs.Method.Described
import MethodSig.Proofs.Validation.Record

/-!
# The checking adapter is faithful

A described value passes the checks part by part, and what passes them is within the limit that the
checks themselves keep count of.
-/

namespace MethodSig

open Json (fieldOr HasShortNumbers)

namespace Validation

section Fields

variable {α : Type} {fields : List (String × Json)} {name : String}

/-- A default may be checked in the place of the field that is absent. -/
theorem optional_eq_under {default : Json} {a : α} {check : Json → Checked α}
    (h : check default = .valid a) :
    optional fields name a check = (check (fieldOr fields name default)).under (.field name) := by
  rw [optional, fieldOr]
  cases fields.lookup name with
  | none => rw [Option.getD_none, h, Checked.under_valid]
  | some value => rfl

theorem optional_eq_valid_of_fieldOr {default value : Json} {a b : α} {check : Json → Checked α}
    (hdefault : check default = .valid a) (hvalue : fieldOr fields name default = value)
    (h : check value = .valid b) : optional fields name a check = .valid b := by
  rw [optional_eq_under hdefault, hvalue, h, Checked.under_valid]

theorem optional_eq_valid_of_lookup {value : Json} {a b : α} {check : Json → Checked α}
    (hlookup : fields.lookup name = some value) (h : check value = .valid b) :
    optional fields name a check = .valid b := by
  rw [optional, hlookup]
  dsimp only
  rw [h, Checked.under_valid]

theorem required_eq_valid_of_lookup {value : Json} {a : α} {check : Json → Checked α}
    (hlookup : fields.lookup name = some value) (h : check value = .valid a) :
    required fields name check = .valid a := by
  rw [required, hlookup]
  dsimp only
  rw [h, Checked.under_valid]

end Fields

theorem ensures_hasShortDimensions (limit : ℕ) :
    Ensures HasShortNumbers (descriptorWithin limit) Descriptor.HasShortDimensions := by
  intro value d hvalue h
  induction limit generalizing value d with
  | zero => cases h
  | succ levels ih =>
      obtain ⟨_, fields, heq, rfl, hcomponent, hdimensions⟩ := descriptorWithin_eq_valid h
      obtain rfl := Nat.succ.inj heq
      have hfew :=
        ensures_natural.optional hereditary_hasShortNumbers hvalue (by decide) hdimensions
      obtain ⟨kind, name, component, dimensions⟩ := d
      cases component with
      | none => exact hfew
      | some component =>
          obtain ⟨inner, hlookup, hinner⟩ := component_eq_valid hcomponent
          exact ⟨ih inner component (hvalue.of_lookup _ hlookup) hinner, hfew⟩

@[simp] theorem kind_name (k : Kind) : kind (.string k.name) = .valid k := by
  cases k <;> rfl

@[simp] theorem argumentName_string (a : Argument) :
    argumentName (.string a.name) = .valid ⟨a.name, a.name_isIdentifier⟩ :=
  dif_pos a.name_isIdentifier

@[simp] theorem nullable_text_ofText? (s : Option String) :
    nullable text (.ofText? s) = .valid s := by
  cases s <;> rfl

theorem nullable_object {α : Type} {check : Json → Checked α} {fields : List (String × Json)}
    {a : α} (h : check (.object fields) = .valid a) :
    nullable check (.object fields) = .valid (some a) := by
  rw [nullable, h, Checked.map_valid]
  simp

/-- The induction is on the description; each component leaves one level less for the next. -/
theorem descriptorWithin_of_describes {value : Json} {d : Descriptor} (h : DescribesType value d)
    {limit : ℕ} (hlimit : d.levels ≤ limit) : descriptorWithin limit value = .valid d := by
  induction h generalizing limit with
  | plain hkind hname hcomponent hdimensions =>
      obtain ⟨levels, rfl⟩ := Nat.exists_eq_add_of_le' hlimit
      rw [Descriptor.levels, descriptorWithin, record,
        required_eq_valid_of_lookup hkind (kind_name _),
        required_eq_valid_of_lookup hname (text_string _),
        optional_eq_valid_of_fieldOr nullable_null hcomponent nullable_null,
        optional_eq_valid_of_fieldOr (natural_int 0) hdimensions (natural_int _)]
      rfl
  | nested hkind hname hcomponent h hdimensions ih =>
      obtain ⟨levels, rfl⟩ := Nat.exists_eq_add_of_le' (Nat.le_of_add_left_le hlimit)
      obtain ⟨fields, rfl⟩ := h.eq_object
      have hinner := nullable_object (ih (Nat.le_of_succ_le_succ hlimit))
      rw [descriptorWithin, record,
        required_eq_valid_of_lookup hkind (kind_name _),
        required_eq_valid_of_lookup hname (text_string _),
        optional_eq_valid_of_lookup hcomponent hinner,
        optional_eq_valid_of_fieldOr (natural_int 0) hdimensions (natural_int _)]
      rfl

theorem descriptor_of_describes {value : Json} {d : Descriptor} (h : DescribesType value d)
    (hlimit : d.levels ≤ maxLevels) : descriptor value = .valid d :=
  descriptorWithin_of_describes h hlimit

theorem argument_of_describes {value : Json} {a : Argument} (h : DescribesArgument value a)
    (hlimit : a.type.levels ≤ maxLevels) : argument value = .valid a := by
  obtain ⟨fields, rfl, hname, type, htype, hdescribes⟩ := h
  rw [argument, record, required_eq_valid_of_lookup hname (argumentName_string a),
    required_eq_valid_of_lookup htype (descriptor_of_describes hdescribes hlimit)]
  rfl

theorem member_of_describes {value : Json} {m : Member} (h : DescribesMember value m)
    (hlimit : ∀ d ∈ m.parameterTypes, d.levels ≤ maxLevels) : member value = .valid m := by
  obtain ⟨fields, rfl, howner, hname, ⟨types, htypes, hdescribe⟩, hreturn, hstatic⟩ := h
  have hparameters : tuple descriptor (.array types) = .valid m.parameterTypes :=
    itemsFrom_of_forall₂ hdescribe (fun _ d hd h => descriptor_of_describes h (hlimit d hd)) 0
  rw [member, record, required_eq_valid_of_lookup howner (text_string _),
    required_eq_valid_of_lookup hname (text_string _),
    optional_eq_valid_of_fieldOr tuple_nil htypes hparameters,
    optional_eq_valid_of_fieldOr nullable_null hreturn (nullable_text_ofText? _),
    optional_eq_valid_of_fieldOr (boolean_bool false) hstatic (boolean_bool _)]
  rfl

theorem method_of_describes {value : Json} {m : Method} (h : DescribesMethod value m)
    (hlimit : m.IsWithin maxLevels) : method value = .valid m := by
  obtain ⟨fields, rfl, hname, ⟨type, htype, htypeDescribes⟩, ⟨arguments, harguments, hdescribe⟩,
    ⟨bound, hbound, hboundDescribes⟩, hunique⟩ := h
  obtain ⟨hresult, hrest⟩ := List.forall_mem_cons.mp hlimit
  obtain ⟨htypes, hparameters⟩ := List.forall_mem_append.mp hrest
  have hchecked : tuple argument (.array arguments) = .valid m.arguments :=
    itemsFrom_of_forall₂ hdescribe
      (fun _ a ha h => argument_of_describes h (htypes a.type (List.mem_map_of_mem ha))) 0
  rw [method, record, required_eq_valid_of_lookup hname (text_string _),
    required_eq_valid_of_lookup htype (descriptor_of_describes htypeDescribes hresult),
    optional_eq_valid_of_fieldOr tuple_nil harguments hchecked,
    required_eq_valid_of_lookup hbound (member_of_describes hboundDescribes hparameters),
    optional_eq_valid_of_fieldOr nullable_null hunique (nullable_text_ofText? _)]
  rfl

end Validation

namespace BatchAdapter

open Validation

theorem checking_validate_eq_ok_iff {value : Json} {methods : List Method} :
    checking.validate value = .ok methods ↔
      list method value = .valid methods := by
  rw [checking]
  dsimp only
  cases list method value with
  | valid others => simp [Checked.toExcept, Except.mapError]
  | invalid faults => simp [Checked.toExcept, Except.mapError]

theorem checking_isFaithful : checking.IsFaithful maxLevels where
  dump_eq_ok h := if_pos h
  dump_eq_error h := by
    obtain ⟨m, hm, hbeyond⟩ := h
    exact ⟨_, if_neg fun hall => hbeyond (hall m hm)⟩
  validate_eq_ok h hlimit := by
    obtain ⟨items, rfl, hdescribe⟩ := h
    rw [checking_validate_eq_ok_iff]
    exact itemsFrom_of_forall₂ hdescribe (fun _ m hm h => method_of_describes h (hlimit m hm)) 0
  isWithin_of_validate h := by
    have hmethod := ensures_method hereditary_true (ensures_levels_le maxLevels)
    exact hmethod.list hereditary_true _ _ trivial (checking_validate_eq_ok_iff.mp h)
  hasShortDimensions_of_validate hvalue h := by
    have hmethod :=
      ensures_method hereditary_hasShortNumbers (ensures_hasShortDimensions maxLevels)
    exact hmethod.list hereditary_hasShortNumbers _ _ hvalue (checking_validate_eq_ok_iff.mp h)

end BatchAdapter

end MethodSig
