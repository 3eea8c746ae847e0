import MethodSig.Catalog.Scan
import MethodSig.Proofs.Source.CommentedSurvey

/-!
# Scanning a commented source

Comments leave no trace in the catalog as long as they stand beside the texts that are taken from
the source, or among the type arguments of a type. A comment in a list of supertypes is registered
as a supertype.
-/

namespace MethodSig

open Source

namespace Catalog

/-- Scanning a tree with comments placed in it gives the same catalog and the same log as scanning
the tree without them, and ends early exactly if that does. -/
theorem scanTree_commented (c : Catalog) {source source' : List UInt8} {root root' : Node}
    (h : Commented source source' root root') (hlegible : root.IsLegible source)
    (hlegible' : root'.IsLegible source') :
    (c.scanTree source' root').value.catalog = (c.scanTree source root).value.catalog ∧
      (c.scanTree source' root').log = (c.scanTree source root).log ∧
      ((c.scanTree source' root').value.fault = none ↔
        (c.scanTree source root).value.fault = none) := by
  obtain ⟨hfound, hfault⟩ := agree_survey h hlegible hlegible'
  have hnone : (survey source' root').fault = none ↔ (survey source root).fault = none := by
    rw [← Option.isNone_iff_eq_none, ← Option.isNone_iff_eq_none, ← Option.not_isSome,
      ← Option.not_isSome, hfault]
  simp [scanTree, hfound, hnone]

end Catalog

/-! ## Comments in front of a type and among its arguments -/

open Text

/-- Comments in front of a type and in front of its argument. -/
structure Placed where
  beforeType : String
  beforeArgument : String

namespace Placed

/-- A class that extends a type with one type argument. -/
def text (p : Placed) : List UInt8 :=
  Utf8.encode ("class A extends " ++ p.beforeType ++ "B<" ++ p.beforeArgument ++ "C> \x7b\x7d")

def nodes (start : ℕ) (comment : String) : List Node :=
  if comment.length = 0 then []
  else [⟨"block_comment", true, start, start + comment.length, none, []⟩]

def supertype (p : Placed) : Node :=
  let k := p.beforeType.length
  let m := p.beforeArgument.length
  ⟨"generic_type", true, 16 + k, 20 + k + m, none, [
    ⟨"type_identifier", true, 16 + k, 17 + k, none, []⟩,
    ⟨"type_arguments", true, 17 + k, 20 + k + m, none, nodes (18 + k) p.beforeArgument ++ [
      ⟨"type_identifier", true, 18 + k + m, 19 + k + m, none, []⟩]⟩]⟩

/-- The syntax tree of the class without its keywords and punctuation. -/
def tree (p : Placed) : Node :=
  let length := p.beforeType.length + p.beforeArgument.length
  ⟨"program", true, 0, 23 + length, none, [
    ⟨"class_declaration", true, 0, 23 + length, none, [
      ⟨"identifier", true, 6, 7, some "name", []⟩,
      ⟨"superclass", true, 8, 20 + length, some "superclass",
        nodes 16 p.beforeType ++ [p.supertype]⟩]⟩]⟩

def nowhere : Placed :=
  ⟨"", ""⟩

def shown : Placed :=
  ⟨"/**/", ""⟩

def hidden : Placed :=
  ⟨"", "/*C*/"⟩

theorem interspersed_nodes {R : Node → Node → Prop} {source source' text text' : List UInt8}
    {parts parts' : List Node} (start : ℕ) (comment : String)
    (h : Interspersed R source source' text text' parts parts') :
    Interspersed R source source' text ((source'.drop start).take comment.length ++ text')
      parts (nodes start comment ++ parts') := by
  unfold nodes
  split
  next hlength => simpa [hlength] using h
  next =>
    have hbytes : (source'.drop start).take comment.length =
        Node.bytes source' ⟨"block_comment", true, start, start + comment.length, none, []⟩ := by
      rw [Node.bytes, Nat.add_sub_cancel_left]
    rw [hbytes]
    simpa using @Interspersed.comment _ _ _ _ _ [] [] _ _ _ ⟨.inr rfl, rfl, rfl⟩ rfl rfl h

theorem commented_tree : ∀ p ∈ [shown, hidden],
    Commented nowhere.text p.text nowhere.tree p.tree := by
  intro p hp
  refine .of_parts ⟨rfl, rfl, rfl⟩ (.part ?_ .nil) (by decide +kernel)
    (by revert p; decide +kernel)
  refine .of_parts ⟨rfl, rfl, rfl⟩
    (.gap (Utf8.encode "class ") (.part ?_ (.gap (Utf8.encode " ") (.part ?_
      (.gap (Utf8.encode " \x7b\x7d") .nil))))) (by decide +kernel) (by revert p; decide +kernel)
  · exact .of_bytes_eq ⟨rfl, rfl, rfl⟩ ⟨rfl, rfl⟩ (by revert p; decide +kernel)
  · refine .of_parts ⟨rfl, rfl, rfl⟩
      (.gap (Utf8.encode "extends ") (interspersed_nodes 16 p.beforeType (.part ?_ .nil)))
      (by decide +kernel) (by revert p; decide +kernel)
    refine .of_parts ⟨rfl, rfl, rfl⟩ (.part ?_ (.part ?_ .nil)) (by decide +kernel)
      (by revert p; decide +kernel)
    · exact .of_bytes_eq ⟨rfl, rfl, rfl⟩ ⟨rfl, rfl⟩ (by revert p; decide +kernel)
    · refine .of_parts ⟨rfl, rfl, rfl⟩
        (.gap (Utf8.encode "<") (interspersed_nodes _ p.beforeArgument
          (.part ?_ (.gap (Utf8.encode ">") .nil)))) (by decide +kernel)
        (by revert p; decide +kernel)
      exact .of_bytes_eq ⟨rfl, rfl, rfl⟩ ⟨rfl, rfl⟩ (by revert p; decide +kernel)

/-- A comment in front of the argument does not show. -/
theorem isLegible_tree : ∀ p ∈ [nowhere, hidden], p.tree.IsLegible p.text := by
  intro p hp
  have hbefore : p.beforeType = "" := by
    revert p
    decide
  have hinside : ∀ c ∈ (p.beforeArgument ++ "C").toList, Signature.isAngle c = false := by
    have hall : (p.beforeArgument ++ "C").toList.all (!Signature.isAngle ·) = true := by
      clear hbefore
      revert p
      decide +kernel
    intro c hc
    simpa only [Bool.not_eq_true'] using List.all_eq_true.mp hall c hc
  have hreadings : p.tree.readings =
      [.whole ⟨"identifier", true, 6, 7, some "name", []⟩, .type p.supertype] := by
    have hnodes : nodes 16 p.beforeType = [] := by
      rw [hbefore]
      rfl
    rw [Node.readings, tree, hnodes, typeReadings_cons, Node.typeReadings]
    rfl
  have hnot {n : Node} (h : n.type ≠ "line_comment" ∧ n.type ≠ "block_comment") :
      ¬ n.IsComment := by
    intro hn
    exact hn.type.elim h.1 h.2
  rw [Node.IsLegible, hreadings, List.forall_mem_cons, List.forall_mem_singleton]
  refine ⟨.mk (hnot (by decide)) (by simp), ?_⟩
  refine .parts (by simp [supertype]) (hnot (by simp [supertype])) ?_
  simp only [supertype, List.forall_mem_cons]
  refine ⟨.parts (by simp) (hnot (by simp)) (by simp), .arguments rfl ?_, by simp⟩
  refine ⟨Utf8.encode (p.beforeArgument ++ "C"), (p.beforeArgument ++ "C").toList, ?_,
    Utf8.decode_eq_ok_iff.mp (Utf8.decode_encode _), .of_plain hinside⟩
  clear hbefore hinside hreadings
  revert p
  decide +kernel

end Placed

theorem Catalog.scanTree_commented_argument :
    Commented Placed.nowhere.text Placed.hidden.text Placed.nowhere.tree Placed.hidden.tree ∧
      Placed.nowhere.tree.IsLegible Placed.nowhere.text ∧
      Placed.hidden.tree.IsLegible Placed.hidden.text ∧
      (Catalog.empty.scanTree Placed.hidden.text Placed.hidden.tree).value.catalog =
        (Catalog.empty.scanTree Placed.nowhere.text Placed.nowhere.tree).value.catalog := by
  have hcommented := Placed.commented_tree .hidden (by simp)
  have hnowhere := Placed.isLegible_tree .nowhere (by simp)
  have hhidden := Placed.isLegible_tree .hidden (by simp)
  exact ⟨hcommented, hnowhere, hhidden,
    (Catalog.empty.scanTree_commented hcommented hnowhere hhidden).1⟩

/-- A comment in front of a supertype is registered as another supertype. -/
theorem Catalog.scanTree_commented_supertype :
    Commented Placed.nowhere.text Placed.shown.text Placed.nowhere.tree Placed.shown.tree ∧
      (Catalog.empty.scanTree Placed.nowhere.text Placed.nowhere.tree).value.catalog.types =
        [⟨"A", "", [], ["B"], false, []⟩] ∧
      (Catalog.empty.scanTree Placed.shown.text Placed.shown.tree).value.catalog.types =
        [⟨"A", "", [], ["/**/", "B"], false, []⟩] :=
  ⟨Placed.commented_tree .shown (by simp), by decide +kernel, by decide +kernel⟩

end MethodSig
