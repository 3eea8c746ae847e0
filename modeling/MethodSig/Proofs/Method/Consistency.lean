import Mathlib.Data.List.Basic
import MethodSig.Method.Consistency

/-!
# What the consistency check decides

The check keeps the first type of every argument name, so that it compares every argument with the
earliest argument of its name. It passes exactly the batches in which every argument name has one
type, and reports the first argument that differs from the earliest of its name otherwise.
-/

namespace MethodSig

def Consistent (arguments : List Argument) : Prop :=
  ∀ a ∈ arguments, ∀ b ∈ arguments, a.name = b.name → a.type = b.type

/-- Consistency does not depend on the order of the arguments. -/
theorem Consistent.of_subset {arguments others : List Argument}
    (h : Consistent arguments) (hsub : ∀ a ∈ others, a ∈ arguments) : Consistent others :=
  fun a ha b hb hname => h a (hsub a ha) b (hsub b hb) hname

/-! ## The earliest argument of a name -/

/-- The type of the earliest argument of the given name. -/
def earliestType? (arguments : List Argument) (name : String) : Option Descriptor :=
  (arguments.find? (·.name = name)).map Argument.type

theorem earliestType?_append (arguments others : List Argument) (name : String) :
    earliestType? (arguments ++ others) name =
      (earliestType? arguments name).or (earliestType? others name) := by
  rw [earliestType?, List.find?_append, Option.map_or]
  rfl

theorem earliestType?_cons (a : Argument) (rest : List Argument) (name : String) :
    earliestType? (a :: rest) name =
      if a.name = name then some a.type else earliestType? rest name := by
  by_cases hname : a.name = name
  · simp [earliestType?, hname]
  · simp [earliestType?, hname]

theorem exists_of_earliestType? {arguments : List Argument} {name : String} {type : Descriptor}
    (h : earliestType? arguments name = some type) :
    ∃ a ∈ arguments, a.name = name ∧ a.type = type := by
  obtain ⟨a, ha, htype⟩ := Option.map_eq_some_iff.mp h
  exact ⟨a, List.mem_of_find?_eq_some ha, by simpa using List.find?_some ha, htype⟩

theorem exists_earliestType?_of_mem {arguments : List Argument} {a : Argument}
    (ha : a ∈ arguments) : ∃ type, earliestType? arguments a.name = some type := by
  have hfound : (arguments.find? (·.name = a.name)).isSome = true :=
    List.find?_isSome.mpr ⟨a, ha, by simp⟩
  obtain ⟨b, hb⟩ := Option.isSome_iff_exists.mp hfound
  exact ⟨b.type, by simp [earliestType?, hb]⟩

/-- Arguments are consistent if each of them has the type of the earliest one of its name. -/
theorem consistent_iff_earliestType? (arguments : List Argument) :
    Consistent arguments ↔ ∀ a ∈ arguments, earliestType? arguments a.name = some a.type := by
  constructor
  · intro h a ha
    obtain ⟨type, htype⟩ := exists_earliestType?_of_mem ha
    obtain ⟨b, hb, hname, rfl⟩ := exists_of_earliestType? htype
    rw [htype, h b hb a ha hname]
  · intro h a ha b hb hname
    have htype := h a ha
    rw [hname, h b hb] at htype
    exact (Option.some.inj htype).symm

/-- Arguments are consistent if their names decide their types. -/
theorem consistent_iff_exists_typeOf (arguments : List Argument) :
    Consistent arguments ↔
      ∃ typeOf : String → Descriptor, ∀ a ∈ arguments, a.type = typeOf a.name := by
  constructor
  · intro h
    refine ⟨fun name => (earliestType? arguments name).getD default, ?_⟩
    intro a ha
    simp [(consistent_iff_earliestType? arguments).mp h a ha]
  · rintro ⟨typeOf, h⟩ a ha b hb hname
    rw [h a ha, h b hb, hname]

/-! ## The conflict that the scan finds -/

/-- The conflict of an argument with the earliest one of its name. -/
def Argument.conflictIn? (arguments : List Argument) (a : Argument) : Option ArgumentConflict :=
  match earliestType? arguments a.name with
  | none => none
  | some type => if type = a.type then none else some ⟨a.name, type, a.type⟩

theorem Argument.conflictIn?_eq_none_iff {arguments : List Argument} {a : Argument}
    (ha : a ∈ arguments) :
    a.conflictIn? arguments = none ↔ earliestType? arguments a.name = some a.type := by
  obtain ⟨type, htype⟩ := exists_earliestType?_of_mem ha
  rw [conflictIn?, htype]
  simp

theorem Argument.conflictIn?_eq_some_iff {arguments : List Argument} {a : Argument}
    {conflict : ArgumentConflict} :
    a.conflictIn? arguments = some conflict ↔
      earliestType? arguments a.name = some conflict.first ∧ conflict.first ≠ conflict.second ∧
        a.name = conflict.name ∧ a.type = conflict.second := by
  obtain ⟨name, first, second⟩ := conflict
  rw [conflictIn?]
  split
  next => simp_all
  next type htype =>
    simp only [htype, Option.ite_none_left_eq_some, Option.some.injEq, ArgumentConflict.mk.injEq]
    constructor
    · rintro ⟨hne, rfl, rfl, rfl⟩
      exact ⟨rfl, hne, rfl, rfl⟩
    · rintro ⟨rfl, hne, rfl, rfl⟩
      exact ⟨hne, rfl, rfl, rfl⟩

/-- The known types are those of the earliest arguments that the scan has seen. -/
def Records (known : List (String × Descriptor)) (seen : List Argument) : Prop :=
  ∀ name, known.lookup name = earliestType? seen name

theorem records_nil : Records [] [] :=
  fun _ => rfl

section Records

variable {known : List (String × Descriptor)} {seen : List Argument} {a : Argument}

/-- The type of a new name is recorded. -/
theorem Records.add (h : Records known seen) (hnone : known.lookup a.name = none) :
    Records ((a.name, a.type) :: known) (seen ++ [a]) := by
  intro name
  rw [earliestType?_append, ← h name, earliestType?_cons, List.lookup_cons]
  by_cases hname : name = a.name
  · simp [hname, hnone]
  · simp [beq_eq_false_iff_ne.mpr hname, Ne.symm hname, earliestType?]

/-- The type of a name that is known already stays as it is. -/
theorem Records.keep (h : Records known seen) {type : Descriptor}
    (hsome : known.lookup a.name = some type) : Records known (seen ++ [a]) := by
  intro name
  rw [earliestType?_append, ← h name, earliestType?_cons]
  by_cases hname : a.name = name
  · simp [← hname, hsome]
  · simp [hname, earliestType?]

theorem Records.earliestType?_eq (h : Records known seen) {type : Descriptor}
    (hsome : known.lookup a.name = some type) (rest : List Argument) :
    earliestType? (seen ++ rest) a.name = some type := by
  rw [earliestType?_append, ← h, hsome, Option.some_or]

end Records

/-- The scan compares each argument with the earliest one of its name, among those that it has
seen and those to come. -/
theorem firstConflict?_eq_findSome? {known : List (String × Descriptor)}
    {seen arguments : List Argument} (h : Records known seen) :
    firstConflict? known arguments =
      arguments.findSome? (Argument.conflictIn? (seen ++ arguments)) := by
  fun_induction firstConflict? known arguments generalizing seen with
  | case1 => rfl
  | case2 known a rest hnone ih =>
      -- the first argument of a name is itself the earliest one
      have hearliest : earliestType? (seen ++ a :: rest) a.name = some a.type := by
        rw [earliestType?_append, ← h, hnone, Option.none_or, earliestType?_cons, if_pos rfl]
      have hself := (Argument.conflictIn?_eq_none_iff (by simp)).mpr hearliest
      rw [ih (h.add hnone), List.findSome?_cons, hself, ← List.append_cons]
  | case3 known a rest hsome ih =>
      have hself := (Argument.conflictIn?_eq_none_iff (by simp)).mpr
        (h.earliestType?_eq hsome (a :: rest))
      rw [ih (h.keep hsome), List.findSome?_cons, hself, ← List.append_cons]
  | case4 known a rest type hsome hne =>
      have hself : a.conflictIn? (seen ++ a :: rest) = some ⟨a.name, type, a.type⟩ :=
        Argument.conflictIn?_eq_some_iff.mpr
          ⟨h.earliestType?_eq hsome (a :: rest), hne, rfl, rfl⟩
      rw [List.findSome?_cons, hself]

theorem firstConflict?_nil (arguments : List Argument) :
    firstConflict? [] arguments = arguments.findSome? (Argument.conflictIn? arguments) := by
  rw [firstConflict?_eq_findSome? records_nil, List.nil_append]

/-! ## What the check reports -/

/-- The conflict is that of the first argument whose type differs from the type of the earliest
argument of its name. -/
def ArgumentConflict.IsFirst (conflict : ArgumentConflict) (arguments : List Argument) : Prop :=
  ∃ before a after, arguments = before ++ a :: after ∧
    (∀ b ∈ before, earliestType? arguments b.name = some b.type) ∧
    earliestType? arguments a.name = some conflict.first ∧ conflict.first ≠ conflict.second ∧
    a.name = conflict.name ∧ a.type = conflict.second

theorem checkConsistency_eq_error_iff (methods : List Method) (conflict : ArgumentConflict) :
    checkConsistency methods = .error conflict ↔
      conflict.IsFirst (methods.flatMap Method.arguments) := by
  have herror : checkConsistency methods = .error conflict ↔
      firstConflict? [] (methods.flatMap Method.arguments) = some conflict := by
    rw [checkConsistency]
    cases firstConflict? [] (methods.flatMap Method.arguments) with
    | none => simp
    | some found => simp
  rw [herror, firstConflict?_nil, List.findSome?_eq_some_iff, ArgumentConflict.IsFirst]
  constructor
  · rintro ⟨before, a, after, hsplit, ha, hbefore⟩
    refine ⟨before, a, after, hsplit, ?_, Argument.conflictIn?_eq_some_iff.mp ha⟩
    intro b hb
    exact (Argument.conflictIn?_eq_none_iff (by simp [hsplit, hb])).mp (hbefore b hb)
  · rintro ⟨before, a, after, hsplit, hbefore, ha⟩
    refine ⟨before, a, after, hsplit, Argument.conflictIn?_eq_some_iff.mpr ha, ?_⟩
    intro b hb
    exact (Argument.conflictIn?_eq_none_iff (by simp [hsplit, hb])).mpr (hbefore b hb)

/-- The check passes exactly the batches in which every argument name has one type. -/
theorem checkConsistency_eq_ok_iff (methods : List Method) :
    checkConsistency methods = .ok () ↔ Consistent (methods.flatMap Method.arguments) := by
  have hok : checkConsistency methods = .ok () ↔
      firstConflict? [] (methods.flatMap Method.arguments) = none := by
    rw [checkConsistency]
    cases firstConflict? [] (methods.flatMap Method.arguments) with
    | none => simp
    | some found => simp
  rw [hok, firstConflict?_nil, List.findSome?_eq_none_iff, consistent_iff_earliestType?]
  exact forall₂_congr fun a ha => Argument.conflictIn?_eq_none_iff ha

/-- Two of the arguments have the name of the conflict and its two types. -/
def ArgumentConflict.IsAmong (conflict : ArgumentConflict) (arguments : List Argument) : Prop :=
  conflict.first ≠ conflict.second ∧
    (∃ a ∈ arguments, a.name = conflict.name ∧ a.type = conflict.first) ∧
    ∃ a ∈ arguments, a.name = conflict.name ∧ a.type = conflict.second

/-- The conflict that the check reports is among the arguments of the batch. -/
theorem isAmong_of_checkConsistency {methods : List Method} {conflict : ArgumentConflict}
    (h : checkConsistency methods = .error conflict) :
    conflict.IsAmong (methods.flatMap Method.arguments) := by
  obtain ⟨before, a, after, hsplit, -, hearliest, hne, hname, htype⟩ :=
    (checkConsistency_eq_error_iff methods conflict).mp h
  obtain ⟨b, hb, hbname, hbtype⟩ := exists_of_earliestType? hearliest
  exact ⟨hne, ⟨b, hb, hbname.trans hname, hbtype⟩, a, by simp [hsplit], hname, htype⟩

end MethodSig
