import Mathlib.Data.List.Nodup
import MethodSig.Catalog.Basic

/-!
# Merging catalogs

A catalog is determined by its names in order and by what is registered under each of them. Both
are given here for `insert` and `merge`, so that equations between catalogs need no look at the
lists behind them.
-/

namespace MethodSig.Catalog

theorem get?_of_mem_types {c : Catalog} {d : TypeDecl} (h : d ∈ c.types) :
    c.get? d.qualifiedName = some d := by
  have hfound : (c.types.find? (·.qualifiedName = d.qualifiedName)).isSome = true :=
    List.find?_isSome.mpr ⟨d, h, decide_eq_true rfl⟩
  obtain ⟨e, he⟩ := Option.isSome_iff_exists.mp hfound
  obtain ⟨hmem, hname⟩ := mem_types_of_get? (c := c) he
  have heq : e = d := List.inj_on_of_nodup_map c.names_nodup hmem h hname
  exact heq ▸ he

theorem get?_eq_none_iff (c : Catalog) (name : String) : c.get? name = none ↔ name ∉ c.names := by
  rw [get?, List.find?_eq_none, names, List.mem_map, not_exists]
  simp only [decide_eq_true_eq, not_and]

/-- Catalogs with the same names in the same order and the same declarations are equal. -/
theorem eq_of_names_eq_of_get?_eq {a b : Catalog} (hnames : a.names = b.names)
    (hget : ∀ name, a.get? name = b.get? name) : a = b := by
  have hlength : a.types.length = b.types.length := by
    simpa [names] using congrArg List.length hnames
  have htypes : a.types = b.types := by
    refine List.ext_getElem hlength ?_
    intro i ha hb
    have hname : a.types[i].qualifiedName = b.types[i].qualifiedName := by
      have := List.getElem_of_eq hnames (by simpa [names] using ha)
      simpa [names] using this
    have hget := hget a.types[i].qualifiedName
    rw [get?_of_mem_types (List.getElem_mem ha), hname,
      get?_of_mem_types (List.getElem_mem hb), Option.some.injEq] at hget
    exact hget
  cases a
  cases b
  cases htypes
  rfl

/-! ## Registering a type -/

theorem names_insert (c : Catalog) (d : TypeDecl) :
    (c.insert d).names =
      if d.qualifiedName ∈ c.names then c.names else c.names ++ [d.qualifiedName] := by
  have hlist (types : List TypeDecl) :
      (insertDecl d types).map TypeDecl.qualifiedName =
        if d.qualifiedName ∈ types.map TypeDecl.qualifiedName then
          types.map TypeDecl.qualifiedName
        else types.map TypeDecl.qualifiedName ++ [d.qualifiedName] := by
    induction types with
    | nil => rfl
    | cons e rest ih =>
        rw [insertDecl]
        split
        next heq => simp [heq]
        next hne =>
          rw [List.map_cons, ih, List.map_cons]
          have hne : d.qualifiedName ≠ e.qualifiedName := Ne.symm hne
          simp only [List.mem_cons, hne, false_or]
          split <;> rfl
  exact hlist c.types

theorem get?_insert (c : Catalog) (d : TypeDecl) (name : String) :
    (c.insert d).get? name = if name = d.qualifiedName then some d else c.get? name := by
  have hlist (types : List TypeDecl) :
      (insertDecl d types).find? (·.qualifiedName = name) =
        if name = d.qualifiedName then some d
        else types.find? (·.qualifiedName = name) := by
    induction types with
    | nil =>
        rw [insertDecl, List.find?_singleton]
        simp [eq_comm]
    | cons e rest ih =>
        rw [insertDecl]
        split
        next heq =>
          rw [List.find?_cons, List.find?_cons, heq]
          by_cases hname : name = d.qualifiedName
          · simp [hname]
          · simp [Ne.symm hname, hname]
        next hne =>
          rw [List.find?_cons, List.find?_cons, ih]
          by_cases hname : name = d.qualifiedName
          · have : e.qualifiedName ≠ name := hname ▸ hne
            simp [hname, hne]
          · simp [hname]
  exact hlist c.types

/-! ## Merging -/

/-- The names of some types that are registered one after another stand behind those of the
catalog. -/
theorem names_foldl_insert (c : Catalog) {types : List TypeDecl}
    (h : (types.map TypeDecl.qualifiedName).Nodup) :
    (types.foldl insert c).names =
      c.names ++ (types.map TypeDecl.qualifiedName).filter (· ∉ c.names) := by
  induction types generalizing c with
  | nil => simp
  | cons d rest ih =>
      rw [List.map_cons, List.nodup_cons] at h
      rw [List.foldl_cons, ih _ h.2, names_insert, List.map_cons, List.filter_cons]
      by_cases hd : d.qualifiedName ∈ c.names
      · simp [hd]
      · have hfilter : (rest.map TypeDecl.qualifiedName).filter
              (· ∉ c.names ++ [d.qualifiedName]) =
            (rest.map TypeDecl.qualifiedName).filter (· ∉ c.names) := by
          refine List.filter_congr ?_
          intro name hname
          have hne : name ≠ d.qualifiedName := by
            rintro rfl
            exact h.1 hname
          simp [hne]
        rw [if_neg hd, if_pos (decide_eq_true hd), hfilter, List.append_assoc,
          List.singleton_append]

theorem get?_foldl_insert (c : Catalog) {types : List TypeDecl}
    (h : (types.map TypeDecl.qualifiedName).Nodup) (name : String) :
    (types.foldl insert c).get? name =
      (types.find? (·.qualifiedName = name)).or (c.get? name) := by
  induction types generalizing c with
  | nil => rfl
  | cons d rest ih =>
      rw [List.map_cons, List.nodup_cons] at h
      rw [List.foldl_cons, ih _ h.2, get?_insert, List.find?_cons]
      by_cases hname : name = d.qualifiedName
      · have hrest : rest.find? (·.qualifiedName = name) = none := by
          rw [List.find?_eq_none]
          intro e he heq
          rw [decide_eq_true_eq, hname] at heq
          exact h.1 (heq ▸ List.mem_map_of_mem he)
        rw [hrest]
        simp [hname]
      · simp [hname, Ne.symm hname]

/-- The names of the second catalog that are new stand behind those of the first. -/
theorem names_merge (c other : Catalog) :
    (c.merge other).names = c.names ++ other.names.filter (· ∉ c.names) :=
  names_foldl_insert c other.names_nodup

/-- The second catalog decides what is registered under a name that both have. -/
theorem get?_merge (c other : Catalog) (name : String) :
    (c.merge other).get? name = (other.get? name).or (c.get? name) :=
  get?_foldl_insert c other.names_nodup name

theorem merge_empty (c : Catalog) : c.merge empty = c :=
  rfl

/-- A type may be registered before or after merging. -/
theorem merge_insert (c other : Catalog) (d : TypeDecl) :
    c.merge (other.insert d) = (c.merge other).insert d := by
  apply eq_of_names_eq_of_get?_eq
  · rw [names_merge, names_insert, names_insert, names_merge]
    by_cases hother : d.qualifiedName ∈ other.names
    · by_cases hc : d.qualifiedName ∈ c.names
      · simp [hother, hc]
      · simp [hother, hc]
    · by_cases hc : d.qualifiedName ∈ c.names
      · simp [hother, hc]
      · simp [hother, hc]
  · intro name
    rw [get?_merge, get?_insert, get?_insert, get?_merge]
    split <;> rfl

/-- Merging the same catalog a second time changes nothing. -/
theorem merge_merge_self (c other : Catalog) : (c.merge other).merge other = c.merge other := by
  apply eq_of_names_eq_of_get?_eq
  · have hknown : other.names.filter (· ∉ (c.merge other).names) = [] := by
      rw [List.filter_eq_nil_iff]
      intro name hname
      by_cases hc : name ∈ c.names
      · simp [names_merge, hc]
      · simp [names_merge, hc, hname]
    rw [names_merge, hknown, List.append_nil]
  · intro name
    rw [get?_merge, get?_merge, ← Option.or_assoc, Option.or_self]

end MethodSig.Catalog
