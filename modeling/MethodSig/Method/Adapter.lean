import MethodSig.Method.Json
import MethodSig.Validation.Record

/-!
# The checking adapter

Values are checked part by part and faults are reported with the path that leads to them. A string
with an unpaired surrogate is refused where a text belongs, for no name could hold it. Descriptors
of too many levels are neither written nor read.
-/

namespace MethodSig.BatchAdapter

/-- The adapter that checks values field by field. -/
def checking : BatchAdapter where
  dump methods :=
    if ∀ m ∈ methods, m.IsWithin Validation.maxLevels then .ok (.array (methods.map Method.toJson))
    else .error "Circular reference detected (depth exceeded)"
  validate value :=
    (Validation.list Validation.method value).toExcept.mapError
      (List.map Validation.Fault.complaint)

end MethodSig.BatchAdapter
