import Mathlib.Data.List.Forall2
import MethodSig.Method.Json
import MethodSig.Proofs.Json.ShortNumbers

/-!
# Values that describe batches

What a value says about a batch is said of its fields alone: it does not depend on how a value is
checked. An adapter is faithful up to a number of levels if it writes batches with all their fields,
and takes from a value the batch that the value describes.
-/

namespace MethodSig

open Json (HasFewDigits HasShortNumbers)

/-- The dimensions of a descriptor and of its components are numbers of not too many digits. -/
def Descriptor.HasShortDimensions : Descriptor → Prop
  | ⟨_, _, none, dimensions⟩ => HasFewDigits dimensions
  | ⟨_, _, some component, dimensions⟩ => component.HasShortDimensions ∧ HasFewDigits dimensions

instance Descriptor.decidableHasShortDimensions : (d : Descriptor) → Decidable d.HasShortDimensions
  | ⟨_, _, none, dimensions⟩ => inferInstanceAs (Decidable (HasFewDigits dimensions))
  | ⟨_, _, some component, dimensions⟩ =>
    have := component.decidableHasShortDimensions
    inferInstanceAs (Decidable (component.HasShortDimensions ∧ HasFewDigits dimensions))

/-- All descriptors of a method have short dimensions. -/
def Method.HasShortDimensions (m : Method) : Prop :=
  ∀ d ∈ m.descriptors, d.HasShortDimensions

instance (m : Method) : Decidable m.HasShortDimensions :=
  inferInstanceAs (Decidable (∀ d ∈ m.descriptors, d.HasShortDimensions))

/-! ## Descriptions -/

/-- The value of a field, or a default where there is no such field. -/
def Json.fieldOr (fields : List (String × Json)) (name : String) (default : Json) : Json :=
  (fields.lookup name).getD default

open Json (fieldOr)

/-- A value has the fields of a descriptor; its component may be null, and so may be left out. -/
inductive DescribesType : Json → Descriptor → Prop where
  | plain {fields : List (String × Json)} {kind : Kind} {name : String} {dimensions : ℕ}
      (hkind : fields.lookup "kind" = some (.string kind.name))
      (hname : fields.lookup "name" = some (.string name))
      (hcomponent : fieldOr fields "component" .null = .null)
      (hdimensions : fieldOr fields "dimensions" (.int 0) = .int dimensions) :
      DescribesType (.object fields) ⟨kind, name, none, dimensions⟩
  | nested {fields : List (String × Json)} {kind : Kind} {name : String} {dimensions : ℕ}
      {inner : Json} {component : Descriptor}
      (hkind : fields.lookup "kind" = some (.string kind.name))
      (hname : fields.lookup "name" = some (.string name))
      (hcomponent : fields.lookup "component" = some inner) (h : DescribesType inner component)
      (hdimensions : fieldOr fields "dimensions" (.int 0) = .int dimensions) :
      DescribesType (.object fields) ⟨kind, name, some component, dimensions⟩

theorem DescribesType.eq_object {value : Json} {d : Descriptor} (h : DescribesType value d) :
    ∃ fields, value = .object fields := by
  cases h with
  | plain => exact ⟨_, rfl⟩
  | nested => exact ⟨_, rfl⟩

def DescribesArgument (value : Json) (a : Argument) : Prop :=
  ∃ fields, value = .object fields ∧ fields.lookup "name" = some (.string a.name) ∧
    ∃ type, fields.lookup "type" = some type ∧ DescribesType type a.type

/-- The parameters, the declared return type and the mark of a static member have defaults. -/
def DescribesMember (value : Json) (m : Member) : Prop :=
  ∃ fields, value = .object fields ∧ fields.lookup "owner" = some (.string m.owner) ∧
    fields.lookup "name" = some (.string m.name) ∧
    (∃ types, fieldOr fields "parameter_types" (.array []) = .array types ∧
      List.Forall₂ DescribesType types m.parameterTypes) ∧
    fieldOr fields "return_type" .null = .ofText? m.returnType ∧
    fieldOr fields "is_static" (.bool false) = .bool m.isStatic

/-- The arguments and the unique name have defaults. -/
def DescribesMethod (value : Json) (m : Method) : Prop :=
  ∃ fields, value = .object fields ∧ fields.lookup "name" = some (.string m.name) ∧
    (∃ type, fields.lookup "result_type" = some type ∧ DescribesType type m.resultType) ∧
    (∃ arguments, fieldOr fields "arguments" (.array []) = .array arguments ∧
      List.Forall₂ DescribesArgument arguments m.arguments) ∧
    (∃ member, fields.lookup "member" = some member ∧ DescribesMember member m.member) ∧
    fieldOr fields "unique_name" .null = .ofText? m.uniqueName

def DescribesBatch (value : Json) (methods : List Method) : Prop :=
  ∃ items, value = .array items ∧ List.Forall₂ DescribesMethod items methods

/-- What an adapter is relied on for. The limit is the number of levels that descriptors may have
within one another before the adapter gives up. -/
structure BatchAdapter.IsFaithful (adapter : BatchAdapter) (limit : ℕ) : Prop where
  /-- A batch within the limit is written with all its fields. -/
  dump_eq_ok {methods : List Method} (h : ∀ m ∈ methods, m.IsWithin limit) :
    adapter.dump methods = .ok (.array (methods.map Method.toJson))
  /-- A batch beyond the limit is refused. -/
  dump_eq_error {methods : List Method} (h : ∃ m ∈ methods, ¬ m.IsWithin limit) :
    ∃ reason, adapter.dump methods = .error reason
  /-- Within the limit a value stands for the batch it describes. -/
  validate_eq_ok {value : Json} {methods : List Method} (h : DescribesBatch value methods)
    (hlimit : ∀ m ∈ methods, m.IsWithin limit) : adapter.validate value = .ok methods
  /-- No value stands for a batch beyond the limit. -/
  isWithin_of_validate {value : Json} {methods : List Method}
    (h : adapter.validate value = .ok methods) : ∀ m ∈ methods, m.IsWithin limit
  /-- No dimension has too many digits unless there is such a number in the value. -/
  hasShortDimensions_of_validate {value : Json} {methods : List Method}
    (hvalue : HasShortNumbers value) (h : adapter.validate value = .ok methods) :
    ∀ m ∈ methods, m.HasShortDimensions

/-! ## What is written describes the batch -/

theorem describesType_toJson (d : Descriptor) : DescribesType d.toJson d := by
  induction d using Descriptor.toJson.induct with
  | case1 kind name dimensions =>
      rw [Descriptor.toJson]
      exact .plain rfl rfl rfl rfl
  | case2 kind name component dimensions ih =>
      rw [Descriptor.toJson]
      exact .nested rfl rfl rfl ih rfl

theorem forall₂_map_of_forall {α : Type} {R : Json → α → Prop} {write : α → Json}
    (h : ∀ a, R (write a) a) (as : List α) : List.Forall₂ R (as.map write) as :=
  List.forall₂_map_left_iff.mpr (List.forall₂_same.mpr fun a _ => h a)

theorem describesArgument_toJson (a : Argument) : DescribesArgument a.toJson a :=
  ⟨_, rfl, rfl, _, rfl, describesType_toJson a.type⟩

theorem describesMember_toJson (m : Member) : DescribesMember m.toJson m :=
  ⟨_, rfl, rfl, rfl, ⟨_, rfl, forall₂_map_of_forall describesType_toJson m.parameterTypes⟩, rfl,
    rfl⟩

theorem describesMethod_toJson (m : Method) : DescribesMethod m.toJson m :=
  ⟨_, rfl, rfl, ⟨_, rfl, describesType_toJson m.resultType⟩,
    ⟨_, rfl, forall₂_map_of_forall describesArgument_toJson m.arguments⟩,
    ⟨_, rfl, describesMember_toJson m.member⟩, rfl⟩

theorem describesBatch_toJson (methods : List Method) :
    DescribesBatch (.array (methods.map Method.toJson)) methods :=
  ⟨_, rfl, forall₂_map_of_forall describesMethod_toJson methods⟩

end MethodSig
