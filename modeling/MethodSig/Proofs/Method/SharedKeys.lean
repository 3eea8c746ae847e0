import Mathlib.Data.List.Duplicate
import MethodSig.Proofs.Method.Order

/-!
# Sort keys that methods share

Methods that share a key may stand anywhere in a batch. Sorting brings them next to each other, so
that the neighbours of one key are found exactly if some key is shared: the first of them are the
first two methods of the least shared key, and there are as many of them as there are methods beyond
the first of each key.
-/

namespace MethodSig.Method

/-- The least of the sort keys that several methods share. -/
def IsLeastShared (methods : List Method) (key : SortKey) : Prop :=
  (methods.map sortKey).Duplicate key ∧
    ∀ other, (methods.map sortKey).Duplicate other → key.rank ≤ other.rank

theorem IsLeastShared.unique {methods : List Method} {key other : SortKey}
    (h : IsLeastShared methods key) (h' : IsLeastShared methods other) : key = other :=
  SortKey.rank_inj.mp (le_antisymm (h.2 other h'.1) (h'.2 key h.1))

/-- Only which keys are shared matters. -/
theorem isLeastShared_congr {methods others : List Method}
    (h : ∀ key, (methods.map sortKey).Duplicate key ↔ (others.map sortKey).Duplicate key)
    (key : SortKey) : IsLeastShared methods key ↔ IsLeastShared others key := by
  simp only [IsLeastShared, h]

theorem isLeastShared_iff_of_perm {methods others : List Method} (h : methods.Perm others)
    (key : SortKey) : IsLeastShared methods key ↔ IsLeastShared others key := by
  apply isLeastShared_congr
  intro shared
  rw [List.duplicate_iff_two_le_count, List.duplicate_iff_two_le_count,
    (h.map sortKey).count_eq]

/-- A method whose key no other method has may be left out. -/
theorem isLeastShared_cons_iff {a : Method} {rest : List Method}
    (ha : a.sortKey ∉ rest.map sortKey) (key : SortKey) :
    IsLeastShared (a :: rest) key ↔ IsLeastShared rest key := by
  apply isLeastShared_congr
  intro shared
  rw [List.map_cons, List.duplicate_cons_iff, or_iff_right]
  rintro ⟨rfl, hmem⟩
  exact ha hmem

/-- If the first key of a batch in order is shared, it is the least one. -/
theorem InOrder.isLeastShared_first {a : Method} {rest : List Method} (h : InOrder (a :: rest))
    (ha : a.sortKey ∈ rest.map sortKey) : IsLeastShared (a :: rest) a.sortKey := by
  refine ⟨List.Mem.duplicate_cons_self ha, ?_⟩
  intro other hother
  obtain ⟨m, hm, rfl⟩ := List.mem_map.mp hother.mem
  exact h.rank_le_of_mem hm

/-- In a batch in order, the first neighbours of one key are the first two methods of the least
shared key. -/
theorem isLeastShared_of_duplicates {ordered : List Method} {pair : Method × Method}
    {pairs : List (Method × Method)} (h : InOrder ordered)
    (hpairs : duplicates ordered = pair :: pairs) :
    IsLeastShared ordered pair.1.sortKey ∧
      [pair.1, pair.2] <+: ordered.filter (·.sortKey = pair.1.sortKey) := by
  induction ordered with
  | nil => simp [duplicates] at hpairs
  | cons a rest ih =>
      cases rest with
      | nil => simp [duplicates] at hpairs
      | cons b rest =>
          rw [duplicates_cons_cons] at hpairs
          split at hpairs
          next hkey =>
            obtain ⟨rfl, -⟩ := List.cons.inj hpairs
            refine ⟨h.isLeastShared_first ((sortKey_mem_map_iff h).mpr hkey), ?_⟩
            rw [List.filter_cons_of_pos (by simp), List.filter_cons_of_pos (by simp [hkey])]
            simp
          next hkey =>
            -- then the key of the first method is not shared at all
            have ha : a.sortKey ∉ (b :: rest).map sortKey := mt (sortKey_mem_map_iff h).mp hkey
            obtain ⟨hleast, hprefix⟩ := ih h.of_cons hpairs
            have hne : a.sortKey ≠ pair.1.sortKey := by
              intro heq
              exact ha (heq ▸ hleast.1.mem)
            refine ⟨(isLeastShared_cons_iff ha _).mpr hleast, ?_⟩
            rw [List.filter_cons_of_neg (by simpa using hne)]
            exact hprefix

/-! ## What sorting finds -/

/-- Each warning stands for one method beyond the first of its key. -/
theorem length_log_sort_warn (methods : List Method) :
    (sort .warn methods).log.length + (methods.map sortKey).toFinset.card = methods.length := by
  have hkeys : ((inOrder methods).map sortKey).toFinset = (methods.map sortKey).toFinset :=
    List.toFinset_eq_of_perm _ _ ((perm_inOrder methods).map sortKey)
  have hcount := length_duplicates_add_card (inOrder_inOrder methods)
  rw [hkeys, (perm_inOrder methods).length_eq] at hcount
  rw [log_sort_warn, List.length_map]
  exact hcount

theorem log_sort_reject (methods : List Method) : (sort .reject methods).log = [] := by
  simp only [sort]
  cases duplicates (inOrder methods) with
  | nil => rfl
  | cons pair pairs => rfl

theorem isLeastShared_of_value_sort {methods : List Method} {pair : Method × Method}
    (h : (sort .reject methods).value = .error pair) :
    IsLeastShared methods pair.1.sortKey ∧
      [pair.1, pair.2] <+: methods.filter (·.sortKey = pair.1.sortKey) := by
  rw [value_sort_reject] at h
  split at h
  next => contradiction
  next found pairs hpairs =>
    obtain rfl := Except.error.inj h
    rw [← isLeastShared_iff_of_perm (perm_inOrder methods), ← filter_sortKey_inOrder]
    exact isLeastShared_of_duplicates (inOrder_inOrder methods) hpairs

/-- Sorting fails exactly if methods share a key, wherever in the batch they stand. -/
theorem exists_value_sort_eq_error_iff (methods : List Method) :
    (∃ pair, (sort .reject methods).value = .error pair) ↔
      ∃ key, (methods.map sortKey).Duplicate key := by
  rw [List.exists_duplicate_iff_not_nodup, ← ((perm_inOrder methods).map sortKey).nodup_iff,
    ← duplicates_eq_nil_iff (inOrder_inOrder methods), value_sort_reject]
  cases duplicates (inOrder methods) with
  | nil => simp
  | cons pair pairs => simp

/-- Where duplicates are refused, the first two methods of the least shared key are given back. -/
theorem value_sort_eq_error_iff (methods : List Method) (first second : Method) :
    (sort .reject methods).value = .error (first, second) ↔
      ∃ key, IsLeastShared methods key ∧ [first, second] <+: methods.filter (·.sortKey = key) := by
  constructor
  · intro h
    exact ⟨first.sortKey, isLeastShared_of_value_sort h⟩
  · rintro ⟨key, hkey, hprefix⟩
    obtain ⟨pair, hpair⟩ := (exists_value_sort_eq_error_iff methods).mpr ⟨key, hkey.1⟩
    obtain ⟨hkey', hprefix'⟩ := isLeastShared_of_value_sort hpair
    obtain rfl := hkey'.unique hkey
    have hpairs : [first, second] = [pair.1, pair.2] :=
      (List.prefix_of_prefix_length_le hprefix hprefix' le_rfl).eq_of_length rfl
    obtain ⟨rfl, rfl⟩ : first = pair.1 ∧ second = pair.2 := by simpa using hpairs
    exact hpair

end MethodSig.Method
