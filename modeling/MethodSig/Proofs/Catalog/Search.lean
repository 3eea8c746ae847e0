import Mathlib.Data.List.ReduceOption
import Mathlib.Order.Nat
import MethodSig.Catalog.Binding

/-!
# The search goes by distance

The search for members comes by every type above its target exactly once, those at a smaller
distance first. The proof adds to each pending and each seen name the distance at which it was
reached: pending names stand in the order of their distances, which differ by at most one, and
what the seen types lead to is seen or pending one step farther away.
-/

namespace MethodSig.Catalog

variable {c : Catalog} {namespaceName target : String}

/-- A declaration names another one among its supertypes, by a text that means it in the scope of
the declaration. -/
def IsSupertype (c : Catalog) (namespaceName : String) (d e : TypeDecl) : Prop :=
  ∃ text ∈ d.supertypes, ∃ type,
    ((c.scope namespaceName d).resolve? text).value = some type ∧ type.kind = .declared ∧
      c.get? type.name = some e

/-- The declaration is reached from the target in the given number of steps to supertypes. -/
inductive Above (c : Catalog) (namespaceName target : String) : ℕ → TypeDecl → Prop where
  | target {d : TypeDecl} (h : c.get? target = some d) : Above c namespaceName target 0 d
  | supertype {n : ℕ} {d e : TypeDecl} (hd : Above c namespaceName target n d)
      (he : c.IsSupertype namespaceName d e) : Above c namespaceName target (n + 1) e

theorem IsSupertype.get?_qualifiedName {d e : TypeDecl} (h : c.IsSupertype namespaceName d e) :
    c.get? e.qualifiedName = some e := by
  obtain ⟨text, -, type, -, -, hget⟩ := h
  rw [(mem_types_of_get? hget).2]
  exact hget

theorem Above.get?_qualifiedName {n : ℕ} {d : TypeDecl} (h : c.Above namespaceName target n d) :
    c.get? d.qualifiedName = some d := by
  cases h with
  | target h => rw [(mem_types_of_get? h).2]; exact h
  | supertype hd he => exact he.get?_qualifiedName

theorem mem_supertypes_iff (d : TypeDecl) (name : String) :
    name ∈ (c.supertypes namespaceName d).value ↔
      ∃ text ∈ d.supertypes, ∃ type,
        ((c.scope namespaceName d).resolve? text).value = some type ∧ type.kind = .declared ∧
          type.name = name := by
  simp only [supertypes, Logged.value_bind, Logged.value_mapM, Logged.value_pure,
    List.reduceOption_mem_iff, List.mem_map]
  refine exists_congr fun text => and_congr_right fun _ => ?_
  cases hresolved : ((c.scope namespaceName d).resolve? text).value with
  | none => simp
  | some type =>
      obtain ⟨kind, found, component, dimensions⟩ := type
      cases kind with
      | primitive => simp
      | declared => simp
      | array => simp

/-- The names that a declaration leads to are those of its supertypes. -/
theorem isSupertype_iff (d e : TypeDecl) :
    c.IsSupertype namespaceName d e ↔
      e.qualifiedName ∈ (c.supertypes namespaceName d).value ∧ c.get? e.qualifiedName = some e := by
  constructor
  · intro h
    have hget := h.get?_qualifiedName
    obtain ⟨text, htext, type, htype, hkind, he⟩ := h
    refine ⟨(mem_supertypes_iff d _).mpr ⟨text, htext, type, htype, hkind, ?_⟩, hget⟩
    exact (mem_types_of_get? he).2.symm
  · rintro ⟨hmem, hget⟩
    obtain ⟨text, htext, type, htype, hkind, hname⟩ := (mem_supertypes_iff d _).mp hmem
    exact ⟨text, htext, type, htype, hkind, hname ▸ hget⟩

/-! ## The frontier -/

/-- A name is seen or pending at the given distance or nearer. -/
def Known (pending seen : List (ℕ × String)) (n : ℕ) (name : String) : Prop :=
  ∃ m ≤ n, (m, name) ∈ seen ∨ (m, name) ∈ pending

/-- What holds of the pending and seen names and their distances throughout the search. -/
structure Frontier (c : Catalog) (namespaceName target : String)
    (pending seen : List (ℕ × String)) : Prop where
  /-- Nearer names are pending first. -/
  sorted : pending.Pairwise fun p q => p.1 ≤ q.1
  /-- The distances of pending names differ by at most one. -/
  within : ∀ p ∈ pending, ∀ q ∈ pending, q.1 ≤ p.1 + 1
  /-- No seen name is farther away than a pending one. -/
  past : ∀ p ∈ seen, ∀ q ∈ pending, p.1 ≤ q.1
  /-- Pending names are reached at their distances. -/
  reached : ∀ p ∈ pending, ∀ d, c.get? p.2 = some d → c.Above namespaceName target p.1 d
  /-- The target is seen or pending. -/
  start : ∀ d, c.get? target = some d → Known pending seen 0 target
  /-- What a seen type leads to is seen or pending one step farther away. -/
  closed : ∀ p ∈ seen, ∀ d, c.get? p.2 = some d → ∀ e, c.IsSupertype namespaceName d e →
    Known pending seen (p.1 + 1) e.qualifiedName

namespace Frontier

variable {pending seen : List (ℕ × String)} {p : ℕ × String}

theorem initial (c : Catalog) (namespaceName target : String) :
    Frontier c namespaceName target [(0, target)] [] := by
  refine ⟨by simp, by simp, by simp, ?_, ?_, by simp⟩
  · intro p hp d hd
    rw [List.mem_singleton] at hp
    subst hp
    exact .target hd
  · intro d _
    exact ⟨0, le_rfl, Or.inr List.mem_cons_self⟩

/-- Whatever is above the target and not seen is no nearer than some pending name. -/
theorem seen_or_pending (h : Frontier c namespaceName target pending seen) {n : ℕ} {d : TypeDecl}
    (hd : c.Above namespaceName target n d) :
    (∃ m ≤ n, (m, d.qualifiedName) ∈ seen) ∨ ∃ q ∈ pending, q.1 ≤ n := by
  have hknown {n : ℕ} {name : String} (hname : Known pending seen n name) :
      (∃ m ≤ n, (m, name) ∈ seen) ∨ ∃ q ∈ pending, q.1 ≤ n := by
    obtain ⟨m, hm, hseen | hpending⟩ := hname
    · exact Or.inl ⟨m, hm, hseen⟩
    · exact Or.inr ⟨_, hpending, hm⟩
  induction hd with
  | @target d hget =>
      rw [(mem_types_of_get? hget).2]
      exact hknown (h.start d hget)
  | @supertype n d e hd he ih =>
      rcases ih with ⟨m, hm, hseen⟩ | ⟨q, hq, hqn⟩
      · obtain ⟨k, hk, hmem⟩ := h.closed _ hseen d hd.get?_qualifiedName e he
        exact hknown ⟨k, by omega, hmem⟩
      · exact Or.inr ⟨q, hq, by omega⟩

/-- The first pending name may be dropped where that forgets no distance of a registered name. -/
theorem drop (h : Frontier c namespaceName target (p :: pending) seen)
    (hforget : ∀ d, c.get? p.2 = some d → ∃ m ≤ p.1, (m, p.2) ∈ seen) :
    Frontier c namespaceName target pending seen := by
  have hknown {n : ℕ} {name : String} {d : TypeDecl} (hd : c.get? name = some d)
      (hname : Known (p :: pending) seen n name) : Known pending seen n name := by
    obtain ⟨m, hm, hseen | hpending⟩ := hname
    · exact ⟨m, hm, Or.inl hseen⟩
    · rcases List.mem_cons.mp hpending with rfl | hrest
      · obtain ⟨k, hk, hseen⟩ := hforget d hd
        exact ⟨k, le_trans hk hm, Or.inl hseen⟩
      · exact ⟨m, hm, Or.inr hrest⟩
  refine ⟨h.sorted.of_cons, ?_, ?_, ?_, ?_, ?_⟩
  · exact fun q hq r hr => h.within q (List.mem_cons_of_mem p hq) r (List.mem_cons_of_mem p hr)
  · exact fun q hq r hr => h.past q hq r (List.mem_cons_of_mem p hr)
  · exact fun q hq => h.reached q (List.mem_cons_of_mem p hq)
  · exact fun d hd => hknown hd (h.start d hd)
  · exact fun q hq d hd e he => hknown he.get?_qualifiedName (h.closed q hq d hd e he)

/-- What a declaration leads to, one step farther away than the declaration. -/
def onward (c : Catalog) (namespaceName : String) (n : ℕ) (d : TypeDecl) : List (ℕ × String) :=
  (c.supertypes namespaceName d).value.map fun name => (n + 1, name)

theorem fst_eq_of_mem_onward {n : ℕ} {d : TypeDecl} {q : ℕ × String}
    (hq : q ∈ onward c namespaceName n d) : q.1 = n + 1 := by
  obtain ⟨name, -, rfl⟩ := List.mem_map.mp hq
  rfl

theorem mem_onward_of_isSupertype {n : ℕ} {d e : TypeDecl}
    (he : c.IsSupertype namespaceName d e) :
    (n + 1, e.qualifiedName) ∈ onward c namespaceName n d :=
  List.mem_map.mpr ⟨e.qualifiedName, ((isSupertype_iff d e).mp he).1, rfl⟩

theorem above_of_mem_onward {n : ℕ} {d e : TypeDecl} {q : ℕ × String}
    (hd : c.Above namespaceName target n d) (hq : q ∈ onward c namespaceName n d)
    (he : c.get? q.2 = some e) : c.Above namespaceName target q.1 e := by
  obtain ⟨name, hname, rfl⟩ := List.mem_map.mp hq
  obtain ⟨-, rfl⟩ := mem_types_of_get? he
  exact .supertype hd ((isSupertype_iff d e).mpr ⟨hname, he⟩)

theorem bounds_of_mem (h : Frontier c namespaceName target (p :: pending) seen) {q : ℕ × String}
    (hq : q ∈ pending) : p.1 ≤ q.1 ∧ q.1 ≤ p.1 + 1 :=
  ⟨List.rel_of_pairwise_cons h.sorted hq,
    h.within p List.mem_cons_self q (List.mem_cons_of_mem p hq)⟩

theorem bounds_of_mem_append (h : Frontier c namespaceName target (p :: pending) seen)
    {d : TypeDecl} {q : ℕ × String} (hq : q ∈ pending ++ onward c namespaceName p.1 d) :
    p.1 ≤ q.1 ∧ q.1 ≤ p.1 + 1 := by
  rcases List.mem_append.mp hq with hq | hq
  · exact h.bounds_of_mem hq
  · have hstep := fst_eq_of_mem_onward hq
    omega

/-- Visiting a name forgets no distance. -/
theorem known_of_known_cons {n : ℕ} {name : String} (more : List (ℕ × String))
    (hname : Known (p :: pending) seen n name) :
    Known (pending ++ more) (p :: seen) n name := by
  obtain ⟨m, hm, hseen | hpending⟩ := hname
  · exact ⟨m, hm, Or.inl (List.mem_cons_of_mem p hseen)⟩
  · rcases List.mem_cons.mp hpending with rfl | hrest
    · exact ⟨m, hm, Or.inl List.mem_cons_self⟩
    · exact ⟨m, hm, Or.inr (List.mem_append_left more hrest)⟩

/-- The first pending name becomes seen, and what its type leads to becomes pending. -/
theorem visit (h : Frontier c namespaceName target (p :: pending) seen) {d : TypeDecl}
    (hd : c.get? p.2 = some d) :
    Frontier c namespaceName target (pending ++ onward c namespaceName p.1 d) (p :: seen) := by
  refine ⟨?_, ?_, ?_, ?_, ?_, ?_⟩
  · refine List.pairwise_append.mpr ⟨h.sorted.of_cons, ?_, ?_⟩
    · refine List.pairwise_of_forall_mem_list ?_
      intro q hq r hr
      exact ((fst_eq_of_mem_onward hq).trans (fst_eq_of_mem_onward hr).symm).le
    · intro q hq r hr
      rw [fst_eq_of_mem_onward hr]
      exact (h.bounds_of_mem hq).2
  · intro q hq r hr
    have hqp := h.bounds_of_mem_append hq
    have hrp := h.bounds_of_mem_append hr
    omega
  · intro q hq r hr
    have hpr := (h.bounds_of_mem_append hr).1
    rcases List.mem_cons.mp hq with rfl | hq
    · exact hpr
    · exact le_trans (h.past q hq p List.mem_cons_self) hpr
  · intro q hq e he
    rcases List.mem_append.mp hq with hq | hq
    · exact h.reached q (List.mem_cons_of_mem p hq) e he
    · exact above_of_mem_onward (h.reached p List.mem_cons_self d hd) hq he
  · exact fun e he => known_of_known_cons _ (h.start e he)
  · intro q hq e he f hf
    rcases List.mem_cons.mp hq with rfl | hq
    · rw [hd, Option.some.injEq] at he
      subst he
      exact ⟨q.1 + 1, le_rfl, Or.inr (List.mem_append_right _ (mem_onward_of_isSupertype hf))⟩
    · exact known_of_known_cons _ (h.closed q hq e he f hf)

end Frontier

/-! ## The whole search -/

/-- The declarations that the search comes by from some pending names on. -/
def searched (c : Catalog) (namespaceName : String) (pending seen : List String) :
    List TypeDecl :=
  (c.visitsFrom namespaceName pending seen).map Visit.decl

/-- What the search comes by once the given names are seen. -/
structure Explored (c : Catalog) (namespaceName target : String) (seen : List String)
    (out : List TypeDecl) : Prop where
  new : ∀ d ∈ out, d.qualifiedName ∉ seen
  nodup : (out.map TypeDecl.qualifiedName).Nodup
  sound : ∀ d ∈ out, ∃ n, c.Above namespaceName target n d
  complete : ∀ n d, c.Above namespaceName target n d → d.qualifiedName ∈ seen ∨ d ∈ out
  nearestFirst : out.Pairwise fun d e =>
    ∀ n, c.Above namespaceName target n e → ∃ m ≤ n, c.Above namespaceName target m d

/-- Visiting the first pending name puts its type before what is come by afterwards. -/
theorem Explored.cons {pending seen : List (ℕ × String)} {p : ℕ × String} {d : TypeDecl}
    {out : List TypeDecl} (h : Frontier c namespaceName target (p :: pending) seen)
    (hget : c.get? p.2 = some d) (hunseen : p.2 ∉ seen.map Prod.snd)
    (hout : Explored c namespaceName target (p.2 :: seen.map Prod.snd) out) :
    Explored c namespaceName target (seen.map Prod.snd) (d :: out) := by
  have hname : d.qualifiedName = p.2 := (mem_types_of_get? hget).2
  have habove : c.Above namespaceName target p.1 d := h.reached p List.mem_cons_self d hget
  refine ⟨?_, ?_, ?_, ?_, ?_⟩
  · refine List.forall_mem_cons.mpr ⟨hname ▸ hunseen, ?_⟩
    exact fun e he hmem => hout.new e he (List.mem_cons_of_mem _ hmem)
  · rw [List.map_cons, List.nodup_cons]
    refine ⟨?_, hout.nodup⟩
    intro hmem
    obtain ⟨e, he, heq⟩ := List.mem_map.mp hmem
    apply hout.new e he
    rw [heq, hname]
    exact List.mem_cons_self
  · exact List.forall_mem_cons.mpr ⟨⟨p.1, habove⟩, hout.sound⟩
  · intro n e he
    rcases hout.complete n e he with hmem | hmem
    · rcases List.mem_cons.mp hmem with heq | hmem
      · have hsame := he.get?_qualifiedName
        rw [heq, hget, Option.some.injEq] at hsame
        exact Or.inr (hsame ▸ List.mem_cons_self)
      · exact Or.inl hmem
    · exact Or.inr (List.mem_cons_of_mem d hmem)
  · refine List.pairwise_cons.mpr ⟨?_, hout.nearestFirst⟩
    intro e he n hn
    refine ⟨p.1, ?_, habove⟩
    rcases h.seen_or_pending hn with ⟨m, -, hmem⟩ | ⟨q, hq, hqn⟩
    · exact absurd (List.mem_cons_of_mem _ (List.mem_map_of_mem hmem)) (hout.new e he)
    · rcases List.mem_cons.mp hq with rfl | hq
      · exact hqn
      · exact le_trans (h.bounds_of_mem hq).1 hqn

/-- From a frontier on, the search comes by exactly what is above the target and not seen, by
distance. -/
theorem Frontier.explored {pending seen : List (ℕ × String)}
    (h : Frontier c namespaceName target pending seen) :
    Explored c namespaceName target (seen.map Prod.snd)
      (c.searched namespaceName (pending.map Prod.snd) (seen.map Prod.snd)) := by
  generalize hnames : pending.map Prod.snd = names
  generalize hseenNames : seen.map Prod.snd = seenNames
  unfold searched
  fun_induction visitsFrom c namespaceName names seenNames generalizing pending seen with
  | case1 seenNames =>
      rw [List.map_eq_nil_iff] at hnames
      subst hnames
      refine ⟨by simp, by simp, by simp, ?_, by simp⟩
      intro n d hd
      rcases h.seen_or_pending hd with ⟨m, -, hseen⟩ | ⟨q, hq, -⟩
      · exact Or.inl (hseenNames ▸ List.mem_map_of_mem hseen)
      · simp at hq
  | case2 seenNames name rest hseen ih =>
      obtain ⟨p, pending, rfl, rfl, rfl⟩ := List.map_eq_cons_iff.mp hnames
      refine ih (h.drop ?_) rfl hseenNames
      intro d _
      rw [List.contains_iff_mem, ← hseenNames] at hseen
      obtain ⟨q, hq, hname⟩ := List.mem_map.mp hseen
      exact ⟨q.1, h.past q hq p List.mem_cons_self, hname ▸ hq⟩
  | case3 seenNames name rest hseen hget ih =>
      obtain ⟨p, pending, rfl, rfl, rfl⟩ := List.map_eq_cons_iff.mp hnames
      refine ih (h.drop ?_) rfl hseenNames
      intro d hd
      rw [hget] at hd
      contradiction
  | case4 seenNames name rest hseen d hget onward _ _ =>
      rename_i ih
      obtain ⟨p, pending, rfl, rfl, rfl⟩ := List.map_eq_cons_iff.mp hnames
      subst hseenNames
      rw [List.contains_iff_mem] at hseen
      refine Explored.cons h hget hseen (ih (h.visit hget) ?_ rfl)
      simp [onward, Frontier.onward, Function.comp_def]

theorem explored_searched (c : Catalog) (namespaceName target : String) :
    Explored c namespaceName target [] (c.searched namespaceName [target] []) :=
  (Frontier.initial c namespaceName target).explored

end MethodSig.Catalog
