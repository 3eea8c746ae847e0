import Mathlib.Data.Finset.Card
import Mathlib.Data.List.Sort
import Mathlib.Data.Prod.Lex
import MethodSig.Method.Order
import MethodSig.Proofs.Text.Order

/-!
# Sorting batches

The sort key of a method is a point in the lexicographic order of names, numbers of arguments
and lists of argument names. Sorting returns the batch in that order and keeps the relative order of
methods that agree in their keys, so it may be done before or after picking some of the methods.
Comparing neighbours is enough to find methods that agree in their keys.
-/

namespace MethodSig

/-- A sort key as a point of the lexicographic order. Texts compare by code points. -/
def SortKey.rank (k : SortKey) : String ×ₗ ℕ ×ₗ List String :=
  toLex (k.name, toLex (k.arity, k.argumentNames))

theorem SortKey.rank_inj {a b : SortKey} : a.rank = b.rank ↔ a = b := by
  obtain ⟨name, arity, argumentNames⟩ := a
  obtain ⟨name', arity', argumentNames'⟩ := b
  simp [SortKey.rank]

theorem SortKey.le_eq_true_iff (a b : SortKey) : a.le b = true ↔ a.rank ≤ b.rank := by
  rw [SortKey.rank, SortKey.rank, Prod.Lex.toLex_le_toLex, Prod.Lex.toLex_le_toLex, SortKey.le]
  by_cases hname : a.name = b.name
  · rw [if_neg (not_not.mpr hname)]
    by_cases harity : a.arity = b.arity
    · rw [if_neg (not_not.mpr harity), Bool.not_eq_true', ← Bool.not_eq_true,
        Text.textsBefore_eq_true_iff, not_lt]
      simp [hname, harity]
    · simp [hname, harity]
  · rw [if_pos hname, Text.textBefore_eq_true_iff]
    simp [hname]

theorem SortKey.le_of_le_of_le (a b c : SortKey) (hab : a.le b = true) (hbc : b.le c = true) :
    a.le c = true := by
  rw [le_eq_true_iff] at hab hbc ⊢
  exact hab.trans hbc

theorem SortKey.le_or_le (a b : SortKey) : (a.le b || b.le a) = true := by
  rw [Bool.or_eq_true, le_eq_true_iff, le_eq_true_iff]
  exact le_total a.rank b.rank

namespace Method

def InOrder (methods : List Method) : Prop :=
  methods.Pairwise fun a b => a.sortKey.rank ≤ b.sortKey.rank

theorem inOrder_iff_pairwise_rank (methods : List Method) :
    InOrder methods ↔ (methods.map fun m => m.sortKey.rank).Pairwise (· ≤ ·) := by
  rw [InOrder, List.pairwise_map]

theorem perm_inOrder (methods : List Method) : (inOrder methods).Perm methods :=
  List.mergeSort_perm methods _

theorem inOrder_inOrder (methods : List Method) : InOrder (inOrder methods) :=
  (List.pairwise_mergeSort (fun a b c => SortKey.le_of_le_of_le a.sortKey b.sortKey c.sortKey)
    (fun a b => SortKey.le_or_le a.sortKey b.sortKey) methods).imp
      fun h => (SortKey.le_eq_true_iff _ _).mp h

theorem inOrder_eq_self {methods : List Method} (h : InOrder methods) :
    inOrder methods = methods :=
  List.mergeSort_of_pairwise (h.imp fun hab => (SortKey.le_eq_true_iff _ _).mpr hab)

/-! ## Methods of one key keep their relative order -/

theorem filter_sortKey_inOrder (methods : List Method) (key : SortKey) :
    (inOrder methods).filter (·.sortKey = key) = methods.filter (·.sortKey = key) := by
  have hsorted : (methods.filter (·.sortKey = key)).Pairwise
      fun a b => a.sortKey.le b.sortKey = true := by
    refine List.pairwise_of_forall_mem_list ?_
    intro a ha b hb
    rw [of_decide_eq_true (List.mem_filter.mp ha).2, of_decide_eq_true (List.mem_filter.mp hb).2,
      SortKey.le_eq_true_iff]
  have hsublist : (methods.filter (·.sortKey = key)).Sublist (inOrder methods) :=
    List.sublist_mergeSort (fun a b c => SortKey.le_of_le_of_le a.sortKey b.sortKey c.sortKey)
      (fun a b => SortKey.le_or_le a.sortKey b.sortKey) hsorted List.filter_sublist
  have hfilter := hsublist.filter (·.sortKey = key)
  rw [List.filter_filter] at hfilter
  simp only [Bool.and_self] at hfilter
  exact (hfilter.eq_of_length ((perm_inOrder methods).filter _).length_eq.symm).symm

/-- The first method of a batch in order has the least key. -/
theorem InOrder.rank_le_of_mem {a b : Method} {rest : List Method} (h : InOrder (a :: rest))
    (hb : b ∈ a :: rest) : a.sortKey.rank ≤ b.sortKey.rank := by
  rcases List.mem_cons.mp hb with rfl | hrest
  · exact le_rfl
  · exact List.rel_of_pairwise_cons h hrest

theorem mem_of_filter_sortKey_eq {methods others : List Method} {m : Method}
    (h : methods.filter (·.sortKey = m.sortKey) = others.filter (·.sortKey = m.sortKey))
    (hm : m ∈ methods) : m ∈ others := by
  have hkey : m ∈ methods.filter (·.sortKey = m.sortKey) := by simp [hm]
  rw [h] at hkey
  exact (List.mem_filter.mp hkey).1

/-- A batch in order is determined by its methods of each key. -/
theorem InOrder.eq_of_filter_sortKey_eq {ordered others : List Method} (h : InOrder ordered)
    (h' : InOrder others)
    (hkeys : ∀ key, ordered.filter (·.sortKey = key) = others.filter (·.sortKey = key)) :
    ordered = others := by
  induction ordered generalizing others with
  | nil =>
      cases others with
      | nil => rfl
      | cons b rest' => simpa using hkeys b.sortKey
  | cons a rest ih =>
      cases others with
      | nil => simpa using hkeys a.sortKey
      | cons b rest' =>
          have hab := h.rank_le_of_mem
            (mem_of_filter_sortKey_eq (hkeys b.sortKey).symm List.mem_cons_self)
          have hba := h'.rank_le_of_mem
            (mem_of_filter_sortKey_eq (hkeys a.sortKey) List.mem_cons_self)
          have hkey : a.sortKey = b.sortKey := SortKey.rank_inj.mp (le_antisymm hab hba)
          have hheads := hkeys a.sortKey
          rw [List.filter_cons_of_pos (by simp), List.filter_cons_of_pos (by simp [hkey])] at hheads
          obtain rfl : a = b := (List.cons.inj hheads).1
          have htails (key : SortKey) :
              rest.filter (·.sortKey = key) = rest'.filter (·.sortKey = key) := by
            have hcons := hkeys key
            rw [List.filter_cons, List.filter_cons] at hcons
            split at hcons
            · exact (List.cons.inj hcons).2
            · exact hcons
          rw [ih h.of_cons h'.of_cons htails]

/-- The methods in the order of their sort keys, with those of one key as they stood before. -/
structure IsStableOrder (methods ordered : List Method) : Prop where
  perm : ordered.Perm methods
  inOrder : InOrder ordered
  filter_sortKey : ∀ key,
    ordered.filter (·.sortKey = key) = methods.filter (·.sortKey = key)

theorem isStableOrder_inOrder (methods : List Method) : IsStableOrder methods (inOrder methods) :=
  ⟨perm_inOrder methods, inOrder_inOrder methods, filter_sortKey_inOrder methods⟩

/-- There is one stable order of a batch. -/
theorem isStableOrder_iff (methods ordered : List Method) :
    IsStableOrder methods ordered ↔ ordered = inOrder methods := by
  constructor
  · intro h
    apply h.inOrder.eq_of_filter_sortKey_eq (inOrder_inOrder methods)
    intro key
    rw [h.filter_sortKey, filter_sortKey_inOrder]
  · rintro rfl
    exact isStableOrder_inOrder methods

/-- Sorting and picking some of the methods may be done in either order. -/
theorem filter_inOrder (p : Method → Bool) (methods : List Method) :
    (inOrder methods).filter p = inOrder (methods.filter p) := by
  refine InOrder.eq_of_filter_sortKey_eq ((inOrder_inOrder methods).filter p)
    (inOrder_inOrder (methods.filter p)) ?_
  intro key
  rw [filter_sortKey_inOrder, List.filter_comm, filter_sortKey_inOrder, List.filter_comm]

/-- The keys of a batch in order depend only on which keys the batch has. -/
theorem map_sortKey_inOrder_congr {methods others : List Method}
    (h : (methods.map sortKey).Perm (others.map sortKey)) :
    (inOrder methods).map sortKey = (inOrder others).map sortKey := by
  have hperm : ((inOrder methods).map sortKey).Perm ((inOrder others).map sortKey) :=
    ((perm_inOrder methods).map sortKey).trans (h.trans ((perm_inOrder others).map sortKey).symm)
  have hanti (a b : SortKey) : a.rank ≤ b.rank → b.rank ≤ a.rank → a = b :=
    fun hab hba => SortKey.rank_inj.mp (le_antisymm hab hba)
  exact List.Perm.eq_of_pairwise (fun a b _ _ => hanti a b)
    (List.pairwise_map.mpr (inOrder_inOrder methods))
    (List.pairwise_map.mpr (inOrder_inOrder others)) hperm

/-! ## Neighbours that agree in their keys -/

theorem duplicates_cons_cons (a b : Method) (rest : List Method) :
    duplicates (a :: b :: rest) =
      if a.sortKey = b.sortKey then (a, b) :: duplicates (b :: rest)
      else duplicates (b :: rest) := by
  simp only [duplicates, List.tail_cons, List.zip_cons_cons, List.filter_cons, decide_eq_true_eq]

/-- In a batch in order, the first key comes again exactly if the next one is the same. -/
theorem sortKey_mem_map_iff {a b : Method} {rest : List Method} (h : InOrder (a :: b :: rest)) :
    a.sortKey ∈ (b :: rest).map sortKey ↔ a.sortKey = b.sortKey := by
  constructor
  · intro hmem
    obtain ⟨c, hc, hkey⟩ := List.mem_map.mp hmem
    -- `b` stands between `a` and `c`, so its key is the one they share
    have hab : a.sortKey.rank ≤ b.sortKey.rank := List.rel_of_pairwise_cons h (by simp)
    have hbc : b.sortKey.rank ≤ c.sortKey.rank := InOrder.rank_le_of_mem h.of_cons hc
    rw [hkey] at hbc
    exact SortKey.rank_inj.mp (le_antisymm hab hbc)
  · intro heq
    rw [heq, List.map_cons]
    exact List.mem_cons_self

/-- In a batch in order, each key makes one pair of neighbours fewer than it has methods. -/
theorem length_duplicates_add_card {ordered : List Method} (h : InOrder ordered) :
    (duplicates ordered).length + (ordered.map sortKey).toFinset.card = ordered.length := by
  induction ordered with
  | nil => simp [duplicates]
  | cons a rest ih =>
      cases rest with
      | nil => simp [duplicates]
      | cons b rest =>
          have htail := ih h.of_cons
          rw [duplicates_cons_cons, List.map_cons, List.toFinset_cons]
          by_cases hkey : a.sortKey = b.sortKey
          · have hmem : a.sortKey ∈ ((b :: rest).map sortKey).toFinset :=
              List.mem_toFinset.mpr ((sortKey_mem_map_iff h).mpr hkey)
            rw [if_pos hkey, Finset.insert_eq_of_mem hmem, List.length_cons, List.length_cons]
            omega
          · have hmem : a.sortKey ∉ ((b :: rest).map sortKey).toFinset := by
              rw [List.mem_toFinset, sortKey_mem_map_iff h]
              exact hkey
            rw [if_neg hkey, Finset.card_insert_of_notMem hmem, List.length_cons]
            omega

/-- In a batch in order, no two methods share a key if no two neighbours do. -/
theorem duplicates_eq_nil_iff {ordered : List Method} (h : InOrder ordered) :
    duplicates ordered = [] ↔ (ordered.map sortKey).Nodup := by
  have hcount := length_duplicates_add_card h
  have hnodup : (ordered.map sortKey).toFinset.card = (ordered.map sortKey).length ↔
      (ordered.map sortKey).Nodup :=
    Multiset.toFinset_card_eq_card_iff_nodup (m := Multiset.ofList (ordered.map sortKey))
  rw [← hnodup, List.length_map, ← List.length_eq_zero_iff]
  omega

/-- Neighbours that are reported share their sort key. -/
theorem sortKey_eq_of_mem_duplicates {ordered : List Method} {pair : Method × Method}
    (h : pair ∈ duplicates ordered) : pair.1.sortKey = pair.2.sortKey :=
  of_decide_eq_true (List.mem_filter.mp h).2

/-- Neighbours that are reported stand in the batch one after the other. -/
theorem sublist_of_mem_duplicates {ordered : List Method} {pair : Method × Method}
    (h : pair ∈ duplicates ordered) : [pair.1, pair.2].Sublist ordered := by
  induction ordered with
  | nil => simp [duplicates] at h
  | cons a rest ih =>
      cases rest with
      | nil => simp [duplicates] at h
      | cons b rest =>
          have hlater (h : pair ∈ duplicates (b :: rest)) :
              [pair.1, pair.2].Sublist (a :: b :: rest) := (ih h).cons a
          rw [duplicates_cons_cons] at h
          split at h
          · rcases List.mem_cons.mp h with rfl | h
            · exact ((List.nil_sublist rest).cons_cons b).cons_cons a
            · exact hlater h
          · exact hlater h

/-- Methods that are reported stand in the same order in the batch that was sorted. -/
theorem sublist_of_mem_duplicates_inOrder {methods : List Method} {pair : Method × Method}
    (h : pair ∈ duplicates (inOrder methods)) : [pair.1, pair.2].Sublist methods := by
  have hkey := sortKey_eq_of_mem_duplicates h
  have hfilter := (sublist_of_mem_duplicates h).filter (·.sortKey = pair.1.sortKey)
  rw [filter_sortKey_inOrder, List.filter_cons_of_pos (by simp),
    List.filter_cons_of_pos (by simp [hkey]), List.filter_nil] at hfilter
  exact hfilter.trans List.filter_sublist

/-! ## What sorting reports -/

theorem log_sort_warn (methods : List Method) :
    (sort .warn methods).log = (duplicates (inOrder methods)).map
      fun pair => .duplicateMethods pair.1.render pair.2.render := rfl

theorem value_sort_warn (methods : List Method) :
    (sort .warn methods).value = .ok (inOrder methods) := rfl

theorem value_sort_reject (methods : List Method) :
    (sort .reject methods).value =
      match duplicates (inOrder methods) with
      | [] => .ok (inOrder methods)
      | pair :: _ => .error pair := by
  simp only [sort]
  cases duplicates (inOrder methods) with
  | nil => rfl
  | cons pair pairs => rfl

theorem mem_duplicates_of_mem_log_sort {policy : DuplicatePolicy} {methods : List Method}
    {first second : String} (h : .duplicateMethods first second ∈ (sort policy methods).log) :
    ∃ pair ∈ duplicates (inOrder methods), first = pair.1.render ∧ second = pair.2.render := by
  simp only [sort] at h
  split at h
  next => simp at h
  next pairs _ =>
    obtain ⟨pair, hpair, hevent⟩ := List.mem_map.mp h
    rw [Event.duplicateMethods.injEq] at hevent
    exact ⟨pair, hpair, hevent.1.symm, hevent.2.symm⟩

theorem mem_duplicates_of_value_sort {policy : DuplicatePolicy} {methods : List Method}
    {pair : Method × Method} (h : (sort policy methods).value = .error pair) :
    pair ∈ duplicates (inOrder methods) := by
  cases policy with
  | warn => simp [value_sort_warn] at h
  | reject =>
      rw [value_sort_reject] at h
      split at h
      next => contradiction
      next first rest hduplicates =>
        rw [hduplicates, Except.error.inj h]
        exact List.mem_cons_self

theorem policy_eq_reject_of_value_sort {policy : DuplicatePolicy} {methods : List Method}
    {pair : Method × Method} (h : (sort policy methods).value = .error pair) :
    policy = .reject := by
  cases policy with
  | warn => simp [value_sort_warn] at h
  | reject => rfl

/-- Sorting succeeds unless duplicates are refused and two methods share a key. -/
theorem value_sort_eq_ok_iff {policy : DuplicatePolicy} {methods ordered : List Method} :
    (sort policy methods).value = .ok ordered ↔
      ordered = inOrder methods ∧
        (policy = .reject → (methods.map sortKey).Nodup) := by
  have hnodup : (methods.map sortKey).Nodup ↔ duplicates (inOrder methods) = [] := by
    rw [duplicates_eq_nil_iff (inOrder_inOrder methods)]
    exact ((perm_inOrder methods).map sortKey).nodup_iff.symm
  rw [hnodup, eq_comm (a := ordered)]
  cases policy with
  | warn => simp [value_sort_warn]
  | reject =>
      rw [value_sort_reject]
      split <;> simp_all

end Method

end MethodSig
