import Mathlib.Data.Nat.Nth
import MethodSig.Proofs.Method.Order
import MethodSig.Proofs.Method.UniqueName
import MethodSig.Proofs.Text.Blank

/-!
# Which numbers are given out

The methods of one base name get that name and then its free numbers in increasing order, where a
number is free if it does not make the base name of a method of the batch. Methods of other base
names have no part in this: the names that they get are neither the base name itself nor one of
its numbered names, unless it is the base name of a method anyway.
-/

namespace MethodSig.UniqueName

theorem numbered_inj {a b : String} {m n : ℕ} : numbered a m = numbered b n ↔ a = b ∧ m = n := by
  refine ⟨?_, fun h => h.1 ▸ h.2 ▸ rfl⟩
  intro h
  have hdigits (k : ℕ) : '_' ∉ Nat.toDigits 10 k :=
    fun hmem => by simpa using Nat.isDigit_of_mem_toDigits (by decide) (by decide) hmem
  have hlists : a.toList ++ '_' :: Nat.toDigits 10 m = b.toList ++ '_' :: Nat.toDigits 10 n := by
    simpa [numbered] using congrArg String.toList h
  have hbase := ((Text.append_cons_inj_of_last (hdigits m) (hdigits n)).mp hlists).1
  obtain rfl : a = b := String.toList_injective hbase
  exact ⟨rfl, numbered_injective a h⟩

/-! ## Free numbers -/

/-- A positive number whose numbered name is no base name of the batch. -/
def IsFree (bases : List String) (base : String) (n : ℕ) : Prop :=
  0 < n ∧ numbered base n ∉ bases

instance (bases : List String) (base : String) : DecidablePred (IsFree bases base) :=
  fun n => inferInstanceAs (Decidable (0 < n ∧ numbered base n ∉ bases))

/-- The free numbers of a base name in increasing order. -/
noncomputable def freeNumber (bases : List String) (base : String) : ℕ → ℕ :=
  Nat.nth (IsFree bases base)

theorem infinite_isFree (bases : List String) (base : String) :
    (Set.ofPred (IsFree bases base)).Infinite := by
  intro hfinite
  have htaken : (Set.preimage (numbered base) {name | name ∈ bases}).Finite :=
    bases.finite_toSet.preimage (numbered_injective base).injOn
  have hall : (Set.univ : Set ℕ) ⊆
      Set.ofPred (IsFree bases base) ∪ Set.preimage (numbered base) {name | name ∈ bases} ∪
        {0} := by
    intro n _
    by_cases hn : 0 < n
    · by_cases hmem : numbered base n ∈ bases
      · exact Or.inl (Or.inr hmem)
      · exact Or.inl (Or.inl ⟨hn, hmem⟩)
    · exact Or.inr (by simpa using hn)
  exact Set.infinite_univ (((hfinite.union htaken).union (Set.finite_singleton 0)).subset hall)

theorem isFree_freeNumber (bases : List String) (base : String) (k : ℕ) :
    IsFree bases base (freeNumber bases base k) :=
  Nat.nth_mem_of_infinite (infinite_isFree bases base) k

/-- Below each free number there are as many free ones as it has in front of it. -/
theorem count_freeNumber (bases : List String) (base : String) (k : ℕ) :
    Nat.count (IsFree bases base) (freeNumber bases base k) = k :=
  Nat.count_nth_of_infinite (infinite_isFree bases base) k

/-- The number to try next after so many free numbers have been given out. -/
noncomputable def tried (bases : List String) (base : String) : ℕ → ℕ
  | 0 => 1
  | k + 1 => freeNumber bases base k + 1

theorem tried_le_iff (bases : List String) (base : String) (k n : ℕ) :
    tried bases base k ≤ n ↔ 0 < n ∧ ∀ i < k, freeNumber bases base i < n := by
  cases k with
  | zero => simp [tried, Nat.succ_le_iff]
  | succ k =>
      have hmono := Nat.nth_monotone (infinite_isFree bases base)
      rw [tried, Nat.succ_le_iff]
      constructor
      · intro h
        refine ⟨by omega, ?_⟩
        intro i hi
        exact lt_of_le_of_lt (hmono (Nat.le_of_lt_succ hi)) h
      · intro h
        exact h.2 k (Nat.lt_succ_self k)

theorem mem_of_lt_firstFree {base : String} {taken : List String} {m n : ℕ} (hle : n ≤ m)
    (hlt : m < firstFree base taken n) : numbered base m ∈ taken := by
  fun_induction firstFree base taken n with
  | case1 taken n hmem _ _ ih =>
      rcases hle.eq_or_lt with rfl | hlt'
      · exact hmem
      · exact List.mem_of_mem_erase (ih hlt' hlt)
  | case2 taken n hnotMem => omega

/-- The search passes over taken names only, so it ends after no more steps than there are of
them. -/
theorem firstFree_le (base : String) (taken : List String) (n : ℕ) :
    firstFree base taken n ≤ n + taken.length := by
  fun_induction firstFree base taken n with
  | case1 taken n hmem hlength hpos ih => omega
  | case2 taken n hnotMem => omega

theorem isLeast_firstFree (base : String) (taken : List String) (n : ℕ) :
    IsLeast {k | n ≤ k ∧ numbered base k ∉ taken} (firstFree base taken n) := by
  refine ⟨⟨le_firstFree base taken n, numbered_firstFree_notMem base taken n⟩, ?_⟩
  rintro k ⟨hle, hfree⟩
  by_contra hlt
  exact hfree (mem_of_lt_firstFree hle (not_le.mp hlt))

/-- If from the number to try next on only the base names are taken, the search finds the next
free number. -/
theorem firstFree_tried {bases taken : List String} {base : String} {k : ℕ}
    (h : ∀ n, tried bases base k ≤ n → (numbered base n ∈ taken ↔ numbered base n ∈ bases)) :
    firstFree base taken (tried bases base k) = freeNumber bases base k := by
  have hle := le_firstFree base taken (tried bases base k)
  have hleast : IsLeast {n | IsFree bases base n ∧ ∀ i < k, freeNumber bases base i < n}
      (firstFree base taken (tried bases base k)) := by
    obtain ⟨hpos, hlater⟩ := (tried_le_iff bases base k _).mp hle
    refine ⟨⟨⟨hpos, ?_⟩, hlater⟩, ?_⟩
    · rw [← h _ hle]
      exact numbered_firstFree_notMem base taken _
    · rintro n ⟨⟨hn, hfree⟩, hn'⟩
      by_contra hlt
      have htried := (tried_le_iff bases base k n).mpr ⟨hn, hn'⟩
      exact hfree ((h n htried).mp (mem_of_lt_firstFree htried (not_le.mp hlt)))
  exact hleast.unique (Nat.isLeast_nth_of_infinite (infinite_isFree bases base) k)

/-! ## The names of one base name -/

/-- The name of a method that comes behind the given number of methods of its base name. -/
noncomputable def nameAt (bases : List String) (base : String) : ℕ → String
  | 0 => base
  | k + 1 => numbered base (freeNumber bases base k)

/-- A step gives out the base name itself or a numbered name that is no base name of the batch. -/
theorem Naming.exists_next_eq (bases : List String) (state : Naming) (base : String) :
    ∃ name count,
      state.next bases base = (name, ⟨(base, count) :: state.counts, name :: state.used⟩) ∧
        (name = base ∨ ∃ n, name = numbered base n ∧ name ∉ bases) := by
  unfold Naming.next
  dsimp only
  split
  next => exact ⟨base, 1, rfl, Or.inl rfl⟩
  next =>
    refine ⟨_, _, rfl, Or.inr ⟨_, rfl, ?_⟩⟩
    intro hmem
    exact numbered_firstFree_notMem base _ _ (List.mem_append_right state.used hmem)

/-- What naming has come to for one base name, after the given number of methods of that name. -/
structure Naming.Tracks (bases : List String) (base : String) (state : Naming) (k : ℕ) :
    Prop where
  /-- The number to try next is kept from the first of these methods on. -/
  lookup_counts : state.counts.lookup base =
    if k = 0 then none else some (tried bases base (k - 1))
  /-- A base name of the batch is in use only if such a method has come. -/
  pos_of_mem_used : base ∈ bases → base ∈ state.used → 0 < k
  /-- From the number to try next on, only base names of the batch are in use. -/
  mem_of_mem_used : ∀ n, tried bases base (k - 1) ≤ n → numbered base n ∈ state.used →
    numbered base n ∈ bases

namespace Naming.Tracks

variable {bases : List String} {base other : String} {state : Naming} {k : ℕ}

theorem initial (bases : List String) (base : String) : Tracks bases base ⟨[], []⟩ 0 :=
  ⟨rfl, by simp, by simp⟩

/-- A method of the base name gets the next of its names. -/
theorem next_self (h : state.Tracks bases base k) (hbase : base ∈ bases) :
    (state.next bases base).1 = nameAt bases base k ∧
      (state.next bases base).2.Tracks bases base (k + 1) := by
  cases k with
  | zero =>
      have hcount : state.counts.lookup base = none := h.lookup_counts
      have hused : base ∉ state.used := fun hmem => by simpa using h.pos_of_mem_used hbase hmem
      have hnext : state.next bases base =
          (base, ⟨(base, 1) :: state.counts, base :: state.used⟩) := by
        simp [Naming.next, hcount, hused]
      rw [hnext]
      refine ⟨rfl, by simp [tried], fun _ _ => Nat.one_pos, ?_⟩
      intro n hn hmem
      rcases List.mem_cons.mp hmem with heq | hmem
      · rw [heq]
        exact hbase
      · exact h.mem_of_mem_used n hn hmem
  | succ k =>
      have hcount : state.counts.lookup base = some (tried bases base k) := h.lookup_counts
      have hfree : firstFree base (state.used ++ bases) (tried bases base k) =
          freeNumber bases base k := by
        apply firstFree_tried
        intro n hn
        rw [List.mem_append, or_iff_right_of_imp (h.mem_of_mem_used n hn)]
      have hnext : state.next bases base =
          (numbered base (freeNumber bases base k),
            ⟨(base, freeNumber bases base k + 1) :: state.counts,
              numbered base (freeNumber bases base k) :: state.used⟩) := by
        simp [Naming.next, hcount, hfree]
      rw [hnext]
      refine ⟨rfl, by simp [tried], fun _ _ => Nat.succ_pos _, ?_⟩
      intro n hn hmem
      have hlt : freeNumber bases base k < n := hn
      rcases List.mem_cons.mp hmem with heq | hmem
      · exact absurd (numbered_injective base heq) hlt.ne'
      · have htried := hfree ▸ le_firstFree base (state.used ++ bases) (tried bases base k)
        exact h.mem_of_mem_used n (htried.trans hlt.le) hmem

/-- A method of another base name changes nothing. -/
theorem next_of_ne (h : state.Tracks bases base k) (hother : other ∈ bases) (hne : base ≠ other) :
    (state.next bases other).2.Tracks bases base k := by
  obtain ⟨name, count, hnext, hname⟩ := state.exists_next_eq bases other
  rw [hnext]
  refine ⟨?_, ?_, ?_⟩
  · rw [List.lookup_cons, beq_eq_false_iff_ne.mpr hne]
    exact h.lookup_counts
  · intro hbase hmem
    rcases List.mem_cons.mp hmem with rfl | hmem
    · rcases hname with heq | ⟨n, -, hnotMem⟩
      · exact absurd heq hne
      · exact absurd hbase hnotMem
    · exact h.pos_of_mem_used hbase hmem
  · intro n hn hmem
    rcases List.mem_cons.mp hmem with heq | hmem
    · rcases hname with rfl | ⟨m, rfl, -⟩
      · exact heq ▸ hother
      · exact absurd (numbered_inj.mp heq).1 hne
    · exact h.mem_of_mem_used n hn hmem

end Naming.Tracks

/-! ## A whole run -/

/-- From any point on, each method gets the name that belongs to the number of methods of its base
name in front of it. -/
theorem assignFrom_eq_mapIdx {bases : List String} {state : Naming} {before rest : List String}
    (h : ∀ base, state.Tracks bases base (before.count base))
    (hrest : ∀ base ∈ rest, base ∈ bases) :
    assignFrom bases state rest =
      rest.mapIdx fun i base => nameAt bases base ((before ++ rest.take i).count base) := by
  induction rest generalizing state before with
  | nil => rfl
  | cons base rest ih =>
      obtain ⟨hbase, hrest⟩ := List.forall_mem_cons.mp hrest
      obtain ⟨hname, hself⟩ := (h base).next_self hbase
      have hnext : ∀ b, (state.next bases base).2.Tracks bases b ((before ++ [base]).count b) := by
        intro b
        rw [List.count_append]
        by_cases hb : b = base
        · rw [hb, List.count_singleton_self]
          exact hself
        · rw [List.count_singleton, if_neg (by simpa using Ne.symm hb)]
          exact (h b).next_of_ne hbase hb
      have hstep : assignFrom bases state (base :: rest) =
          (state.next bases base).1 :: assignFrom bases (state.next bases base).2 rest := rfl
      rw [hstep, hname, ih hnext hrest, List.mapIdx_cons]
      simp

theorem assign_eq_mapIdx (bases : List String) :
    assign bases =
      bases.mapIdx fun i base => nameAt bases base ((bases.take i).count base) := by
  have hinitial : ∀ base, Naming.Tracks bases base ⟨[], []⟩ (([] : List String).count base) :=
    fun base => .initial bases base
  exact assignFrom_eq_mapIdx hinitial fun base hbase => hbase

end MethodSig.UniqueName

namespace MethodSig.Method

open UniqueName

def withUniqueName (m : Method) (name : String) : Method :=
  { m with uniqueName := some name }

@[simp] theorem baseName_withUniqueName (m : Method) (name : String) :
    (m.withUniqueName name).baseName = m.baseName := rfl

/-- The methods of one base name get its names one after another, from the one that naming has
come to. -/
theorem filter_zipWith_assignFrom {bases : List String} {base : String} {state : Naming} {k : ℕ}
    (h : state.Tracks bases base k) {methods : List Method}
    (hmethods : ∀ m ∈ methods, m.baseName ∈ bases) :
    (methods.zipWith withUniqueName (assignFrom bases state (methods.map baseName))).filter
        (·.baseName = base) =
      (methods.filter (·.baseName = base)).mapIdx fun i m =>
        m.withUniqueName (nameAt bases base (k + i)) := by
  induction methods generalizing state k with
  | nil => rfl
  | cons m rest ih =>
      have hm : m.baseName ∈ bases := hmethods m List.mem_cons_self
      have hrest : ∀ m ∈ rest, m.baseName ∈ bases :=
        fun m hm => hmethods m (List.mem_cons_of_mem _ hm)
      rw [List.map_cons, assignFrom, List.zipWith_cons_cons, List.filter_cons, List.filter_cons,
        baseName_withUniqueName]
      by_cases hbase : m.baseName = base
      · obtain ⟨hname, hnext⟩ := h.next_self (hbase ▸ hm)
        rw [hbase, hname, ih hnext hrest]
        simp only [decide_true, if_true, List.mapIdx_cons, Nat.add_zero, Nat.add_right_comm,
          Nat.add_assoc]
      · rw [ih (h.next_of_ne hm (Ne.symm hbase)) hrest]
        simp only [hbase, decide_false, Bool.false_eq_true, if_false]

/-- The methods of one base name get its names in the order in which they stand. -/
theorem filter_assignUniqueNames (base : String) (methods : List Method) :
    (assignUniqueNames methods).filter (·.baseName = base) =
      (methods.filter (·.baseName = base)).mapIdx fun i m =>
        m.withUniqueName (nameAt (methods.map baseName) base i) := by
  have hmethods : ∀ m ∈ methods, m.baseName ∈ methods.map baseName :=
    fun m hm => List.mem_map_of_mem hm
  have hrun := filter_zipWith_assignFrom
    (Naming.Tracks.initial (methods.map baseName) base) hmethods
  simp only [Nat.zero_add] at hrun
  exact hrun

/-- Each method gets its base name if no method of that name stands in front of it, and otherwise
the free number that has as many free numbers in front of it as there are such methods without the
first. Free numbers never give out, and every search for one ends at the first name that is not
taken. -/
theorem assignUniqueNames_eq_mapIdx (methods : List Method) :
    assignUniqueNames methods = methods.mapIdx (fun i m =>
        m.withUniqueName (nameAt (methods.map baseName) m.baseName
          (((methods.take i).map baseName).count m.baseName))) ∧
      (∀ bases base, nameAt bases base 0 = base ∧
        ∀ j, ∃ n, nameAt bases base (j + 1) = numbered base n ∧ IsFree bases base n ∧
          Nat.count (IsFree bases base) n = j) ∧
      ∀ base taken n, IsLeast {k | n ≤ k ∧ numbered base k ∉ taken} (firstFree base taken n) ∧
        firstFree base taken n ≤ n + taken.length := by
  refine ⟨?_, ?_, ?_⟩
  · rw [assignUniqueNames, assign_eq_mapIdx]
    apply List.ext_getElem
    · simp
    · intro i _ _
      simp [withUniqueName]
  · intro bases base
    refine ⟨rfl, ?_⟩
    intro j
    exact ⟨freeNumber bases base j, rfl, isFree_freeNumber bases base j,
      count_freeNumber bases base j⟩
  · intro base taken n
    exact ⟨isLeast_firstFree base taken n, firstFree_le base taken n⟩

/-- The names of a base name depend only on which of its numbers are taken. -/
theorem nameAt_congr {bases others : List String} {base : String}
    (h : ∀ n, 0 < n → (numbered base n ∈ bases ↔ numbered base n ∈ others)) :
    nameAt bases base = nameAt others base := by
  have hfree : IsFree bases base = IsFree others base := by
    funext n
    exact propext (and_congr_right fun hn => not_congr (h n hn))
  funext k
  cases k with
  | zero => rfl
  | succ k => rw [nameAt, nameAt, freeNumber, freeNumber, hfree]

/-- What becomes of the methods of one base name depends only on these methods, in their order,
and on which of the numbered names of that base name are base names of the batch. -/
theorem canonicalize_filter_congr (base : String) {methods others : List Method}
    (hmethods : methods.filter (·.baseName = base) = others.filter (·.baseName = base))
    (hnumbers : ∀ n, 0 < n →
      (numbered base n ∈ methods.map baseName ↔ numbered base n ∈ others.map baseName)) :
    ∃ batch batch', (canonicalize .warn methods).value = .ok batch ∧
      (canonicalize .warn others).value = .ok batch' ∧
      batch.filter (·.baseName = base) = batch'.filter (·.baseName = base) := by
  have hvalue (methods : List Method) :
      (canonicalize .warn methods).value = .ok (assignUniqueNames (inOrder methods)) := by
    rw [canonicalize, Logged.value_map, value_sort_warn]
    rfl
  refine ⟨_, _, hvalue methods, hvalue others, ?_⟩
  have hordered (methods : List Method) (name : String) :
      name ∈ (inOrder methods).map baseName ↔ name ∈ methods.map baseName :=
    ((perm_inOrder methods).map baseName).mem_iff
  have hnames : nameAt ((inOrder methods).map baseName) base =
      nameAt ((inOrder others).map baseName) base := by
    apply nameAt_congr
    intro n hn
    rw [hordered, hordered, hnumbers n hn]
  rw [filter_assignUniqueNames, filter_assignUniqueNames, filter_inOrder, filter_inOrder, hmethods,
    hnames]

/-- A method without arguments. -/
def bare (name : String) : Method :=
  ⟨name, .primitive "void", [], ⟨"p.Api", name, [], none, false⟩, none⟩

/-- Methods around two that share a base name, one of them named like a numbered one, change
nothing about the two. -/
theorem canonicalize_filter_congr_bare :
    let methods := ["get", "get_1", "Get"].map bare
    let others := ["put_1", "Get_1", "put", "get", "get_1", "Put", "Get"].map bare
    (methods.filter (·.baseName = "GET") = others.filter (·.baseName = "GET") ∧
      ∀ n, 0 < n → (numbered "GET" n ∈ methods.map baseName ↔
        numbered "GET" n ∈ others.map baseName)) ∧
    ∃ batch batch', (canonicalize .warn methods).value = .ok batch ∧
      (canonicalize .warn others).value = .ok batch' ∧
      batch.filter (·.baseName = "GET") = batch'.filter (·.baseName = "GET") := by
  intro methods others
  have hmethods : methods.filter (·.baseName = "GET") = others.filter (·.baseName = "GET") := by
    decide +kernel
  have hnumbers : ∀ n, 0 < n → (numbered "GET" n ∈ methods.map baseName ↔
      numbered "GET" n ∈ others.map baseName) := by
    intro n _
    have hbases : methods.map baseName = ["GET", "GET_1", "GET"] := by decide +kernel
    have hbases' : others.map baseName =
        ["PUT_1", "GET_1", "PUT", "GET", "GET_1", "PUT", "GET"] := by decide +kernel
    have hput (name : String) (hname : name.toList.head? = some 'P') : numbered "GET" n ≠ name := by
      rintro rfl
      simp [numbered] at hname
    have hput₁ := hput "PUT" rfl
    have hput₂ := hput "PUT_1" rfl
    rw [hbases, hbases']
    simp only [List.mem_cons, List.not_mem_nil]
    tauto
  exact ⟨⟨hmethods, hnumbers⟩, canonicalize_filter_congr "GET" hmethods hnumbers⟩

end MethodSig.Method
