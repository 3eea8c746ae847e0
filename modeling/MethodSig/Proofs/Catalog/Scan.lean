import MethodSig.Catalog.Directory
import MethodSig.Proofs.Catalog.Merge
import MethodSig.Proofs.Source.Survey
import MethodSig.Proofs.Text.Order

/-!
# Scanning is merging

What a scan leaves behind on a catalog is the catalog merged with what the same scan leaves behind
on the empty one. The proof carries this equation through the registrations one by one: a method
that is found belongs to a type that the scan has registered itself, so the declaration that the
method is added to is the same in both catalogs.
-/

namespace MethodSig

open Source

namespace Catalog

/-- Adding a method to a type of the second catalog may be done before or after merging. -/
theorem addMethod_merge (c : Catalog) {other : Catalog} {owner : String} (h : owner ∈ other.names)
    (m : MethodDecl) :
    ∃ after, other.addMethod owner m = .ok after ∧ other.names = after.names ∧
      (c.merge other).addMethod owner m = .ok (c.merge after) := by
  cases hget : other.get? owner with
  | none => exact absurd h ((get?_eq_none_iff other owner).mp hget)
  | some d =>
      refine ⟨other.insert { d with methods := d.methods ++ [m] }, ?_, ?_, ?_⟩
      · rw [addMethod, hget]
      · have hname : d.qualifiedName = owner := (mem_types_of_get? hget).2
        rw [names_insert, hname, if_pos h]
      · rw [addMethod, get?_merge, hget, Option.some_or, merge_insert]

/-- Registering is merging, and it comes to no early end. -/
theorem registerAll_merge (c other : Catalog) {found : List Registration}
    (h : Owned other.names found) :
    ((c.merge other).registerAll found).value.catalog =
        c.merge (other.registerAll found).value.catalog ∧
      ((c.merge other).registerAll found).value.fault = none := by
  induction found generalizing other with
  | nil => exact ⟨rfl, rfl⟩
  | cons r rest ih =>
      cases r with
      | type d =>
          have hrest : Owned (other.insert d).names rest := by
            refine Owned.mono h ?_
            intro name hname
            rw [names, insert, mem_names_insertDecl]
            exact List.mem_cons.mp hname
          simpa [registerAll, register, merge_insert] using ih (other.insert d) hrest
      | method owner m =>
          obtain ⟨after, hother, hnames, hmerged⟩ := addMethod_merge c h.1 m
          simpa [registerAll, register, hother, hmerged] using ih after (hnames ▸ h.2)

theorem scanTree_merge (c : Catalog) (source : List UInt8) (root : Node) :
    (c.scanTree source root).value.catalog =
        c.merge (empty.scanTree source root).value.catalog ∧
      ∀ owner, (c.scanTree source root).value.fault ≠ some (.unknownOwner owner) := by
  obtain ⟨hcatalog, hfault⟩ := registerAll_merge c empty (owned_survey source root)
  rw [merge_empty] at hcatalog hfault
  refine ⟨by simpa [scanTree] using hcatalog, ?_⟩
  intro owner
  simp [scanTree, hfault]

end Catalog

variable (parse : Parser)

/-- What an entry of a directory declares on its own. -/
def Entry.declared (e : Entry) : Catalog :=
  match e.read with
  | .error _ => .empty
  | .ok content => (Catalog.empty.scan parse content).value.catalog

namespace Catalog

theorem value_scanEntry (c : Catalog) (shown : String) (e : Entry) :
    (c.scanEntry parse shown e).value = c.merge (e.declared parse) := by
  rw [scanEntry, Entry.declared]
  cases e.read with
  | error error => simp [merge_empty]
  | ok content =>
      have hscan : (c.scan parse content).value.catalog =
          c.merge (empty.scan parse content).value.catalog :=
        (scanTree_merge c content (parse content)).1
      rw [Logged.value_bind, ← hscan]
      cases (c.scan parse content).value.fault with
      | none => rfl
      | some fault => rfl

theorem value_scanEntries (c : Catalog) (files : List (String × Entry)) :
    (c.scanEntries parse files).value =
      (files.map fun file => file.2.declared parse).foldl merge c := by
  induction files generalizing c with
  | nil => rfl
  | cons file rest ih =>
      have hcons : c.scanEntries parse (file :: rest) =
          c.scanEntry parse file.1 file.2 >>= fun next => next.scanEntries parse rest :=
        List.foldlM_cons
      rw [hcons, Logged.value_bind, ih, value_scanEntry, List.map_cons, List.foldl_cons]

/-- The paths that a pattern selects are in order. -/
theorem pairwise_le_glob (tree : Entry) (pattern : Pattern) :
    (tree.glob pattern).Pairwise (· ≤ ·) := by
  have hle (a b : Path) : (!Text.textsBefore b a) = true ↔ a ≤ b := by
    rw [Bool.not_eq_true', ← Bool.not_eq_true, Text.textsBefore_eq_true_iff, not_lt]
  refine (List.pairwise_mergeSort ?_ ?_ (tree.select [] pattern.names).eraseDups).imp ?_
  · intro a b c hab hbc
    exact (hle a c).mpr (le_trans ((hle a b).mp hab) ((hle b c).mp hbc))
  · intro a b
    rw [Bool.or_eq_true, hle, hle]
    exact le_total a b
  · intro a b
    exact (hle a b).mp

/-- Scanning a source leaves behind the catalog merged with what the source declares on its own,
wherever the scan ends, and every method finds its owner. A second scan changes nothing, and
scanning a directory merges what its files declare in the order of their paths, whatever the parser
makes of them. -/
theorem scan_eq_merge (c : Catalog) :
    (∀ source root,
      (c.scanTree source root).value.catalog =
          c.merge (empty.scanTree source root).value.catalog ∧
        (∀ owner, (c.scanTree source root).value.fault ≠ some (.unknownOwner owner)) ∧
        ((c.scanTree source root).value.catalog.scanTree source root).value.catalog =
          (c.scanTree source root).value.catalog) ∧
    ∀ directory tree pattern,
      (tree.glob pattern).Pairwise (· ≤ ·) ∧
        (c.scanDirectory parse directory tree pattern).value =
          (((tree.glob pattern).filterMap tree.get?).map (Entry.declared parse)).foldl merge c := by
  refine ⟨?_, ?_⟩
  · intro source root
    obtain ⟨hcatalog, hfault⟩ := scanTree_merge c source root
    refine ⟨hcatalog, hfault, ?_⟩
    rw [(scanTree_merge _ source root).1, hcatalog, merge_merge_self]
  · intro directory tree pattern
    refine ⟨pairwise_le_glob tree pattern, ?_⟩
    rw [scanDirectory, value_scanEntries, List.map_filterMap, List.map_filterMap]
    simp only [Option.map_map, Function.comp_def]

end Catalog

end MethodSig
