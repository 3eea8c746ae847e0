import Mathlib.Data.List.Forall2
import MethodSig.Batch.Diagnostic
import MethodSig.Log

/-!
# How attempts end

Whatever it logs, an attempt either returns a value or raises a diagnostic. An attempt made of
steps returns exactly if every step does, and raises what the first step that does not return
raises.
-/

namespace MethodSig.Attempt

variable {α β : Type}

/-- The attempt ends without a diagnostic, in the given value. -/
def Returns (x : Attempt α) (a : α) : Prop :=
  x.run.value = .ok a

theorem Returns.unique {x : Attempt α} {a b : α} (ha : Returns x a) (hb : Returns x b) :
    a = b := by
  rw [Returns] at ha hb
  rw [ha] at hb
  exact Except.ok.inj hb

instance [DecidableEq α] (x : Attempt α) (a : α) : Decidable (Returns x a) :=
  inferInstanceAs (Decidable (x.run.value = .ok a))

theorem exists_returns_iff (x : Attempt α) : (∃ a, Returns x a) ↔ x.run.value.isOk = true := by
  unfold Returns
  cases x.run.value with
  | ok a => simp [Except.isOk, Except.toBool]
  | error fault => simp [Except.isOk, Except.toBool]

@[simp] theorem returns_pure_iff (a b : α) : Returns (pure a) b ↔ a = b := by
  simp [Returns]

@[simp] theorem returns_throw_iff (fault : Diagnostic) (a : α) :
    Returns (throw fault) a ↔ False := by
  simp [Returns]

@[simp] theorem returns_bind_iff (x : Attempt α) (f : α → Attempt β) (b : β) :
    Returns (x >>= f) b ↔ ∃ a, Returns x a ∧ Returns (f a) b := by
  simp only [Returns, ExceptT.run_bind, Logged.value_bind]
  cases x.run.value with
  | ok a => simp
  | error fault => simp

@[simp] theorem returns_map_iff (x : Attempt α) (f : α → β) (b : β) :
    Returns (f <$> x) b ↔ ∃ a, Returns x a ∧ f a = b := by
  rw [map_eq_pure_bind, returns_bind_iff]
  simp

@[simp] theorem returns_lift_iff (x : Logged α) (a : α) :
    Returns (liftM x) a ↔ x.value = a := by
  simp [Returns]

/-- An attempt over a list returns exactly if it does so for every item. -/
@[simp] theorem returns_mapM_iff (f : α → Attempt β) (items : List α) (results : List β) :
    Returns (items.mapM f) results ↔ List.Forall₂ (fun a b => Returns (f a) b) items results := by
  induction items generalizing results with
  | nil => simp [eq_comm]
  | cons a items ih =>
      rw [List.mapM_cons, List.forall₂_cons_left_iff, returns_bind_iff]
      simp only [returns_bind_iff, returns_pure_iff, ih]
      constructor
      · rintro ⟨b, hb, rest, hrest, rfl⟩
        exact ⟨b, rest, hb, hrest, rfl⟩
      · rintro ⟨b, rest, hb, hrest, rfl⟩
        exact ⟨b, hb, rest, hrest, rfl⟩

/-- Every result that an attempt over a list returns belongs to an item of the list. -/
theorem exists_returns_of_mem {f : α → Attempt β} {items : List α} {results : List β}
    (h : List.Forall₂ (fun a b => Returns (f a) b) items results) {b : β} (hb : b ∈ results) :
    ∃ a ∈ items, Returns (f a) b := by
  obtain ⟨i, hi, rfl⟩ := List.getElem_of_mem hb
  have hi' : i < items.length := h.length_eq ▸ hi
  exact ⟨items[i], List.getElem_mem hi', h.get hi' hi⟩

/-! ## Raising -/

/-- The attempt ends in the given diagnostic. -/
def Raises (x : Attempt α) (fault : Diagnostic) : Prop :=
  x.run.value = .error fault

theorem returns_or_raises (x : Attempt α) : (∃ a, Returns x a) ∨ ∃ fault, Raises x fault := by
  unfold Returns Raises
  cases x.run.value with
  | ok a => exact Or.inl ⟨a, rfl⟩
  | error fault => exact Or.inr ⟨fault, rfl⟩

variable {fault : Diagnostic}

@[simp] theorem not_raises_pure (a : α) : ¬ Raises (pure a) fault := by
  simp [Raises]

@[simp] theorem raises_throw_iff (thrown : Diagnostic) :
    Raises (throw thrown : Attempt α) fault ↔ thrown = fault := by
  simp [Raises]

@[simp] theorem not_raises_lift (x : Logged α) : ¬ Raises (liftM x) fault := by
  simp [Raises]

@[simp] theorem raises_bind_iff (x : Attempt α) (f : α → Attempt β) :
    Raises (x >>= f) fault ↔ Raises x fault ∨ ∃ a, Returns x a ∧ Raises (f a) fault := by
  simp only [Raises, Returns, ExceptT.run_bind, Logged.value_bind]
  cases x.run.value with
  | ok a => simp
  | error fault' => simp

@[simp] theorem raises_map_iff (x : Attempt α) (f : α → β) :
    Raises (f <$> x) fault ↔ Raises x fault := by
  rw [map_eq_pure_bind, raises_bind_iff]
  simp

/-- An attempt over a list raises what it raises for one of the items. -/
theorem exists_raises_of_raises_mapM {f : α → Attempt β} {items : List α}
    (h : Raises (items.mapM f) fault) : ∃ a ∈ items, Raises (f a) fault := by
  induction items with
  | nil => simp at h
  | cons a items ih =>
      rw [List.mapM_cons, raises_bind_iff] at h
      rcases h with h | ⟨b, -, h⟩
      · exact ⟨a, List.mem_cons_self, h⟩
      · rw [raises_bind_iff] at h
        rcases h with h | ⟨bs, -, h⟩
        · obtain ⟨a, ha, h⟩ := ih h
          exact ⟨a, List.mem_cons_of_mem _ ha, h⟩
        · exact absurd h (not_raises_pure _)

end MethodSig.Attempt
