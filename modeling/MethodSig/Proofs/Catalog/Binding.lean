import Mathlib.Data.List.Nodup
import Mathlib.Data.List.Perm.Subperm
import MethodSig.Proofs.Catalog.Search

/-!
# Members are bound to the nearest type

A type has a member of a name and parameter types exactly if one of the types that the search comes
by declares it. The first type that does is one at the least distance, and its first matching
method is the member.
-/

namespace MethodSig.Catalog

variable {c : Catalog} {namespaceName target name : String} {types : List Descriptor}

/-! ## The methods of one type -/

/-- A method of a declaration is meant by a name and parameter types: it is accessible, and its
parameter texts mean those types in the scope of the declaration. -/
def IsMatch (c : Catalog) (namespaceName name : String) (types : List Descriptor) (d : TypeDecl)
    (m : MethodDecl) : Prop :=
  m.name = name ∧ d.isAccessible m = true ∧
    m.parameterTypes.map (fun text => ((c.scope namespaceName d).resolve? text).value) =
      types.map some

def Declares (c : Catalog) (namespaceName name : String) (types : List Descriptor)
    (d : TypeDecl) : Prop :=
  ∃ m ∈ d.methods, c.IsMatch namespaceName name types d m

/-- A method is the first of its declaration that is meant. -/
def IsFirstMatch (c : Catalog) (namespaceName name : String) (types : List Descriptor)
    (d : TypeDecl) (m : MethodDecl) : Prop :=
  ∃ before after, d.methods = before ++ m :: after ∧ c.IsMatch namespaceName name types d m ∧
    ∀ other ∈ before, ¬ c.IsMatch namespaceName name types d other

theorem value_matchesMethod_iff (d : TypeDecl) (m : MethodDecl) :
    (matchesMethod (c.scope namespaceName d) d name types m).value = true ↔
      c.IsMatch namespaceName name types d m := by
  rw [matchesMethod, IsMatch]
  split
  next h =>
    obtain ⟨hname, -, haccessible⟩ := h
    simp [hname, haccessible]
  next h =>
    simp only [Logged.value_pure, Bool.false_eq_true, false_iff]
    rintro ⟨hname, haccessible, htypes⟩
    have hlength := congrArg List.length htypes
    rw [List.length_map, List.length_map] at hlength
    exact h ⟨hname, hlength, haccessible⟩

theorem value_firstMatch (scope : Resolver) (d : TypeDecl) (methods : List MethodDecl) :
    (firstMatch scope d name types methods).value =
      methods.find? fun m => (matchesMethod scope d name types m).value := by
  induction methods with
  | nil => rfl
  | cons m methods ih =>
      rw [firstMatch, Logged.value_bind, List.find?_cons]
      cases hmatch : (matchesMethod scope d name types m).value with
      | true => simp
      | false => simpa using ih

theorem isFirstMatch_of_value_firstMatch {d : TypeDecl} {m : MethodDecl}
    (h : (firstMatch (c.scope namespaceName d) d name types d.methods).value = some m) :
    c.IsFirstMatch namespaceName name types d m := by
  rw [value_firstMatch, List.find?_eq_some_iff_append] at h
  obtain ⟨hmatch, before, after, hmethods, hbefore⟩ := h
  refine ⟨before, after, hmethods, (value_matchesMethod_iff d m).mp hmatch, ?_⟩
  intro other hother hmatch
  have hnot := hbefore other hother
  rw [(value_matchesMethod_iff d other).mpr hmatch] at hnot
  contradiction

theorem value_firstMatch_eq_none_iff (d : TypeDecl) :
    (firstMatch (c.scope namespaceName d) d name types d.methods).value = none ↔
      ¬ c.Declares namespaceName name types d := by
  rw [value_firstMatch, List.find?_eq_none, Declares]
  simp only [value_matchesMethod_iff, not_exists, not_and]

/-! ## The methods of the types of a search -/

theorem value_firstMember_cons (visit : Visit) (rest : List Visit) :
    (c.firstMember namespaceName name types (visit :: rest)).value =
      match (firstMatch (c.scope namespaceName visit.decl) visit.decl name types
        visit.decl.methods).value with
      | some m =>
        some ⟨visit.decl.qualifiedName, m.name, types, some m.returnType, m.isStatic⟩
      | none => (c.firstMember namespaceName name types rest).value := by
  rw [firstMember, Logged.value_bind]
  cases (firstMatch (c.scope namespaceName visit.decl) visit.decl name types
    visit.decl.methods).value with
  | some m => rfl
  | none => simp

/-- Nothing is found exactly if no type of the search declares what is meant. -/
theorem value_firstMember_eq_none_iff (visits : List Visit) :
    (c.firstMember namespaceName name types visits).value = none ↔
      ∀ d ∈ visits.map Visit.decl, ¬ c.Declares namespaceName name types d := by
  induction visits with
  | nil => simp [firstMember]
  | cons visit rest ih =>
      rw [value_firstMember_cons, List.map_cons, List.forall_mem_cons, ← ih,
        ← value_firstMatch_eq_none_iff]
      cases (firstMatch (c.scope namespaceName visit.decl) visit.decl name types
        visit.decl.methods).value with
      | none => simp
      | some m => simp

/-- What is found is the first match of the first type of the search that has one. -/
theorem exists_of_value_firstMember {visits : List Visit} {member : Member}
    (h : (c.firstMember namespaceName name types visits).value = some member) :
    ∃ before d after m, visits.map Visit.decl = before ++ d :: after ∧
      c.IsFirstMatch namespaceName name types d m ∧
      member = ⟨d.qualifiedName, name, types, some m.returnType, m.isStatic⟩ ∧
      ∀ e ∈ before, ¬ c.Declares namespaceName name types e := by
  induction visits with
  | nil => simp [firstMember] at h
  | cons visit rest ih =>
      rw [value_firstMember_cons] at h
      split at h
      next m hmatch =>
        have hfirst := isFirstMatch_of_value_firstMatch hmatch
        have hname : m.name = name := by
          obtain ⟨-, -, -, hmatch, -⟩ := hfirst
          exact hmatch.1
        rw [Option.some.injEq, hname] at h
        exact ⟨[], visit.decl, rest.map Visit.decl, m, rfl, hfirst, h.symm, by simp⟩
      next hnone =>
        obtain ⟨before, d, after, m, hrest, hfirst, hmember, hbefore⟩ := ih h
        refine ⟨visit.decl :: before, d, after, m, by simp [hrest], hfirst, hmember, ?_⟩
        exact List.forall_mem_cons.mpr ⟨(value_firstMatch_eq_none_iff _).mp hnone, hbefore⟩

/-! ## The types of a search -/

/-- The target is a registered class, so the root class stands at the end of its search. -/
def EndsAt (c : Catalog) (target : String) (root : TypeDecl) : Prop :=
  (∃ d, c.get? target = some d ∧ d.isInterface = false) ∧ c.get? objectType = some root

/-- A type that a member of the target may be declared by. -/
def IsSearched (c : Catalog) (namespaceName target : String) (d : TypeDecl) : Prop :=
  (∃ n, c.Above namespaceName target n d) ∨ c.EndsAt target d

theorem any_isClass_iff (c : Catalog) (target : String) :
    (c.get? target).any (!·.isInterface) = true ↔
      ∃ d, c.get? target = some d ∧ d.isInterface = false := by
  simp [Option.any_eq_true]

theorem any_leadsToRoot_iff (c : Catalog) (namespaceName target : String) :
    (c.visitsFrom namespaceName [target] []).any (·.decl.qualifiedName = objectType) = true ↔
      ∃ d ∈ c.searched namespaceName [target] [], d.qualifiedName = objectType := by
  simp [searched, List.any_eq_true]

/-- The search comes by the types above the target and then, unless it came by it already, by the
root class. -/
theorem map_decl_visits (c : Catalog) (namespaceName target : String) :
    (c.visits namespaceName target).map Visit.decl = c.searched namespaceName [target] [] ∧
        (∀ root, c.EndsAt target root → root ∈ c.searched namespaceName [target] []) ∨
      ∃ root, c.EndsAt target root ∧
        (∀ d ∈ c.searched namespaceName [target] [], d.qualifiedName ≠ objectType) ∧
        (c.visits namespaceName target).map Visit.decl =
          c.searched namespaceName [target] [] ++ [root] := by
  have hexplored := explored_searched c namespaceName target
  have hmem {d root : TypeDecl} (hd : d ∈ c.searched namespaceName [target] [])
      (hname : d.qualifiedName = objectType) (hroot : c.get? objectType = some root) :
      root ∈ c.searched namespaceName [target] [] := by
    obtain ⟨n, habove⟩ := hexplored.sound d hd
    have hget := habove.get?_qualifiedName
    rw [hname, hroot, Option.some.injEq] at hget
    exact hget ▸ hd
  unfold visits
  dsimp only
  cases hroot : c.get? objectType with
  | none =>
      refine Or.inl ⟨rfl, ?_⟩
      rintro root ⟨-, hget⟩
      rw [hroot] at hget
      contradiction
  | some root =>
      dsimp only
      split
      next hlast =>
        rw [Bool.and_eq_true, any_isClass_iff, Bool.not_eq_true', ← Bool.not_eq_true,
          any_leadsToRoot_iff, not_exists] at hlast
        refine Or.inr ⟨root, ⟨hlast.1, hroot⟩, ?_, by simp [searched]⟩
        exact fun d hd hname => hlast.2 d ⟨hd, hname⟩
      next hlast =>
        refine Or.inl ⟨rfl, ?_⟩
        rintro other ⟨hclass, hget⟩
        rw [Bool.and_eq_true, any_isClass_iff, Bool.not_eq_true', ← Bool.not_eq_true,
          any_leadsToRoot_iff, not_and, not_not] at hlast
        obtain ⟨d, hd, hname⟩ := hlast hclass
        exact hmem hd hname hget

/-- The search comes by exactly the types that a member may be declared by. -/
theorem mem_map_decl_visits_iff (d : TypeDecl) :
    d ∈ (c.visits namespaceName target).map Visit.decl ↔ c.IsSearched namespaceName target d := by
  have hexplored := explored_searched c namespaceName target
  have hsearched : d ∈ c.searched namespaceName [target] [] ↔
      ∃ n, c.Above namespaceName target n d := by
    constructor
    · exact hexplored.sound d
    · rintro ⟨n, habove⟩
      exact (hexplored.complete n d habove).resolve_left List.not_mem_nil
  rw [IsSearched, ← hsearched]
  rcases map_decl_visits c namespaceName target with ⟨heq, hends⟩ | ⟨root, hroot, -, heq⟩
  · rw [heq]
    exact ⟨Or.inl, fun h => h.elim id (hends d)⟩
  · rw [heq, List.mem_append, List.mem_singleton]
    refine or_congr_right ⟨?_, ?_⟩
    · rintro rfl
      exact hroot
    · rintro ⟨-, hget⟩
      rw [hroot.2, Option.some.injEq] at hget
      exact hget.symm

theorem nodup_visits (c : Catalog) (namespaceName target : String) :
    ((c.visits namespaceName target).map (·.decl.qualifiedName)).Nodup := by
  have hexplored := explored_searched c namespaceName target
  have hmap : (c.visits namespaceName target).map (·.decl.qualifiedName) =
      ((c.visits namespaceName target).map Visit.decl).map TypeDecl.qualifiedName := by
    rw [List.map_map]
    rfl
  rw [hmap]
  rcases map_decl_visits c namespaceName target with ⟨heq, -⟩ | ⟨root, hroot, hnot, heq⟩
  · rw [heq]
    exact hexplored.nodup
  · have hname : root.qualifiedName = objectType := (mem_types_of_get? hroot.2).2
    rw [heq, List.map_append, List.map_singleton, hname, List.nodup_append]
    refine ⟨hexplored.nodup, List.nodup_singleton _, ?_⟩
    intro found hfound other hother
    obtain ⟨d, hd, rfl⟩ := List.mem_map.mp hfound
    rw [List.mem_singleton.mp hother]
    exact hnot d hd

theorem length_visits_le (c : Catalog) (namespaceName target : String) :
    (c.visits namespaceName target).length ≤ c.size := by
  have hsubset : (c.visits namespaceName target).map (·.decl.qualifiedName) ⊆ c.names := by
    intro found hfound
    obtain ⟨visit, hvisit, rfl⟩ := List.mem_map.mp hfound
    have hget : ∃ name, c.get? name = some visit.decl := by
      rcases (mem_map_decl_visits_iff visit.decl).mp (List.mem_map_of_mem hvisit) with
        ⟨n, habove⟩ | hends
      · exact ⟨_, habove.get?_qualifiedName⟩
      · exact ⟨_, hends.2⟩
    obtain ⟨registered, hget⟩ := hget
    exact List.mem_map_of_mem (mem_types_of_get? hget).1
  have hlength := ((nodup_visits c namespaceName target).subperm hsubset).length_le
  rwa [List.length_map, names, List.length_map] at hlength

/-- The first type above the target that declares what is meant is one at the least distance. -/
theorem nearest_of_searched {before after : List TypeDecl} {d : TypeDecl}
    (hsearched : c.searched namespaceName [target] [] = before ++ d :: after)
    (hbefore : ∀ e ∈ before, ¬ c.Declares namespaceName name types e) :
    ∃ n, c.Above namespaceName target n d ∧ ∀ k e, c.Above namespaceName target k e →
      c.Declares namespaceName name types e → n ≤ k := by
  classical
  have hexplored := explored_searched c namespaceName target
  have hd : ∃ n, c.Above namespaceName target n d :=
    hexplored.sound d (by simp [hsearched])
  refine ⟨Nat.find hd, Nat.find_spec hd, ?_⟩
  intro k e habove hdeclares
  have hmem := (hexplored.complete k e habove).resolve_left List.not_mem_nil
  have hnearest := hexplored.nearestFirst
  rw [hsearched] at hmem hnearest
  obtain ⟨-, hnearest, -⟩ := List.pairwise_append.mp hnearest
  rcases List.mem_append.mp hmem with he | he
  · exact absurd hdeclares (hbefore e he)
  · rcases List.mem_cons.mp he with rfl | he
    · exact Nat.find_min' hd habove
    · obtain ⟨m, hm, hmd⟩ := List.rel_of_pairwise_cons hnearest he k habove
      exact le_trans (Nat.find_min' hd hmd) hm

/-- The first type of the search that declares what is meant is one at the least distance, or it
is the root class and no type above the target declares it. -/
theorem nearest_of_map_decl_visits {before after : List TypeDecl} {d : TypeDecl}
    (hvisits : (c.visits namespaceName target).map Visit.decl = before ++ d :: after)
    (hbefore : ∀ e ∈ before, ¬ c.Declares namespaceName name types e) :
    (∃ n, c.Above namespaceName target n d ∧ ∀ k e, c.Above namespaceName target k e →
        c.Declares namespaceName name types e → n ≤ k) ∨
      c.EndsAt target d ∧ ∀ k e, c.Above namespaceName target k e →
        ¬ c.Declares namespaceName name types e := by
  rcases map_decl_visits c namespaceName target with ⟨heq, -⟩ | ⟨root, hroot, -, heq⟩
  · exact Or.inl (nearest_of_searched (heq ▸ hvisits) hbefore)
  · rw [heq] at hvisits
    rcases List.eq_nil_or_concat after with rfl | ⟨rest, last, rfl⟩
    · obtain ⟨rfl, hlast⟩ := List.append_inj' hvisits rfl
      rw [List.singleton_inj] at hlast
      refine Or.inr ⟨hlast ▸ hroot, ?_⟩
      intro k e habove
      have hexplored := explored_searched c namespaceName target
      exact hbefore e ((hexplored.complete k e habove).resolve_left List.not_mem_nil)
    · rw [List.concat_eq_append, ← List.cons_append, ← List.append_assoc] at hvisits
      obtain ⟨hsearched, -⟩ := List.append_inj' hvisits rfl
      exact Or.inl (nearest_of_searched hsearched hbefore)

/-! ## Binding -/

/-- Binding searches every type above the target once and nothing but them and the root class. It
finds a member exactly if one of these declares what is meant, and the member is the first match of
a type at the least distance, where the root class counts as last. -/
theorem bind_nearest (c : Catalog) (namespaceName : String) {target : Descriptor}
    (htarget : target.kind = .declared) (name : String) (types : List Descriptor) :
    ((c.visits namespaceName target.name).map (·.decl.qualifiedName)).Nodup ∧
    (c.visits namespaceName target.name).length ≤ c.size ∧
    ((∃ member, (c.bind namespaceName target name types).value = some member) ↔
      ∃ d, c.IsSearched namespaceName target.name d ∧ c.Declares namespaceName name types d) ∧
    ∀ member, (c.bind namespaceName target name types).value = some member →
      ∃ d m, c.IsFirstMatch namespaceName name types d m ∧
        member = ⟨d.qualifiedName, name, types, some m.returnType, m.isStatic⟩ ∧
        ((∃ n, c.Above namespaceName target.name n d ∧
            ∀ k e, c.Above namespaceName target.name k e →
              c.Declares namespaceName name types e → n ≤ k) ∨
          c.EndsAt target.name d ∧ ∀ k e, c.Above namespaceName target.name k e →
            ¬ c.Declares namespaceName name types e) := by
  have hbind : c.bind namespaceName target name types =
      c.firstMember namespaceName name types (c.visits namespaceName target.name) :=
    if_pos htarget
  rw [hbind]
  refine ⟨nodup_visits c namespaceName target.name, length_visits_le c namespaceName target.name,
    ?_, ?_⟩
  · rw [← Option.ne_none_iff_exists', ne_eq, value_firstMember_eq_none_iff]
    simp only [not_forall, not_not, exists_prop, mem_map_decl_visits_iff]
  · intro member hmember
    obtain ⟨before, d, after, m, hvisits, hfirst, rfl, hbefore⟩ :=
      exists_of_value_firstMember hmember
    exact ⟨d, m, hfirst, rfl, nearest_of_map_decl_visits hvisits hbefore⟩

/-- A class with two ways to an interface that leads back to it, and a supertype that does not
resolve. Both interfaces declare the same method. -/
def crossed : Catalog :=
  [⟨"A", "", [], ["B", "C", "Missing"], false, []⟩,
    ⟨"B", "", [], ["D"], true, []⟩,
    ⟨"C", "", [], ["D"], true, [⟨"run", ["int"], "C", []⟩]⟩,
    ⟨"D", "", [], ["A"], true, [⟨"run", ["int"], "D", []⟩]⟩].foldl insert empty

/-- The nearer of two interfaces is found across a cycle. -/
theorem bind_nearest_crossed :
    ∃ member d m, (crossed.bind "" (.named "A") "run" [.primitive "int"]).value = some member ∧
      crossed.IsFirstMatch "" "run" [.primitive "int"] d m ∧ member.owner = d.qualifiedName := by
  obtain ⟨-, -, hfound, hnearest⟩ :=
    @bind_nearest crossed "" (.named "A") rfl "run" [.primitive "int"]
  have hbound : ∃ member,
      (crossed.bind "" (.named "A") "run" [.primitive "int"]).value = some member := by
    refine hfound.mpr ⟨⟨"C", "", [], ["D"], true, [⟨"run", ["int"], "C", []⟩]⟩, ?_, ?_⟩
    · refine Or.inl ⟨1, .supertype (.target rfl) ⟨"C", ?_, .named "C", ?_, rfl, rfl⟩⟩
      · exact List.mem_cons_of_mem "B" List.mem_cons_self
      · decide +kernel
    · exact ⟨_, List.mem_singleton_self _, rfl, rfl, by decide +kernel⟩
  obtain ⟨member, hmember⟩ := hbound
  obtain ⟨d, m, hfirst, rfl, -⟩ := hnearest member hmember
  exact ⟨_, d, m, hmember, hfirst, rfl⟩

end MethodSig.Catalog
