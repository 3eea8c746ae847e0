/-!
# Log entries

Searching and compiling leave a trail of log entries. A computation that leaves one is a value
together with its entries in the order in which they arose.
-/

namespace MethodSig

/-- How much a log entry matters, from least to most. -/
inductive Level where
  | debug
  | info
  | warning
  | error
deriving DecidableEq, Repr, Inhabited

namespace Level

def rank : Level → Nat
  | .debug => 10
  | .info => 20
  | .warning => 30
  | .error => 40

def name : Level → String
  | .debug => "DEBUG"
  | .info => "INFO"
  | .warning => "WARNING"
  | .error => "ERROR"

end Level

/-- What is worth a log entry. -/
inductive Event where
  | processing (signature : String)
  | retrying (name space : String)
  | bound (signature member : String)
  /-- A supertype did not resolve to a class and is left out of the search. -/
  | skippedSupertype (text type : String)
  | cataloguedType (type : String)
  | duplicateMethods (first second : String)
  | failedScan (path reason : String)
deriving DecidableEq, Repr

namespace Event

def level : Event → Level
  | .duplicateMethods .. | .failedScan .. => .warning
  | _ => .debug

def message : Event → String
  | .processing signature => s!"Processing {signature}"
  | .retrying name space => s!"Retrying {name} in default namespace {space}"
  | .bound signature member => s!"Bound {signature} to {member}"
  | .skippedSupertype text type => s!"Skipping unresolved supertype {text} of {type}"
  | .cataloguedType type => s!"Catalogued type {type}"
  | .duplicateMethods first second => s!"Duplicate methods found [{first}], [{second}]"
  | .failedScan path reason => s!"Failed to scan {path}: {reason}"

end Event

def atLevel (level : Level) (log : List Event) : List Event :=
  log.filter (level.rank ≤ ·.level.rank)

/-- A value together with the log entries that arose on the way to it. -/
structure Logged (α : Type) where
  value : α
  log : List Event

namespace Logged

instance : Monad Logged where
  pure a := ⟨a, []⟩
  bind x f := ⟨(f x.value).value, x.log ++ (f x.value).log⟩

instance : LawfulMonad Logged := LawfulMonad.mk' Logged
  (by intros; simp [Functor.map])
  (by intros; simp [bind, pure])
  (by intros; simp [bind, List.append_assoc])

def tell (event : Event) : Logged Unit :=
  ⟨(), [event]⟩

variable {α β : Type}

@[simp]
theorem value_pure (a : α) : (pure a : Logged α).value = a := rfl

@[simp]
theorem log_pure (a : α) : (pure a : Logged α).log = [] := rfl

@[simp]
theorem value_bind (x : Logged α) (f : α → Logged β) : (x >>= f).value = (f x.value).value := rfl

@[simp]
theorem log_bind (x : Logged α) (f : α → Logged β) :
    (x >>= f).log = x.log ++ (f x.value).log := rfl

@[simp]
theorem value_map (x : Logged α) (f : α → β) : (f <$> x).value = f x.value := rfl

@[simp]
theorem log_map (x : Logged α) (f : α → β) : (f <$> x).log = x.log := by
  simp [Functor.map]

/-- Only what is done with the value matters. -/
theorem bind_congr {x : Logged α} {f g : α → Logged β} (h : f x.value = g x.value) :
    x >>= f = x >>= g := by
  change Logged.mk (f x.value).value (x.log ++ (f x.value).log) = _
  rw [h]
  rfl

@[simp]
theorem value_mapM (f : α → Logged β) (items : List α) :
    (items.mapM f).value = items.map fun a => (f a).value := by
  induction items with
  | nil => simp
  | cons a items ih => simp [ih]

end Logged

end MethodSig
