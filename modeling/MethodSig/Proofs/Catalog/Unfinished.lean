import MethodSig.Proofs.Catalog.Scan

/-!
# Files that are not read to their end

A file whose survey comes to an early end is not skipped: what was found in front of the fault is
registered and stays registered. The file counts as absent exactly if nothing was found there, as
in a file that cannot be read at all.
-/

namespace MethodSig

open Source

variable (parse : Parser)

namespace Entry

/-- What is found in an entry, in order; where there is a fault, what stands in front of it. -/
def found (e : Entry) : List Registration :=
  match e.read with
  | .error _ => []
  | .ok content => (survey content (parse content)).found

/-- Why an entry is not read to its end, if it is not. A path in front of the path of the entry is
part of its name. -/
def fault? (shown : String) (e : Entry) : Option FileFault :=
  match e.read with
  | .error error => some (.unreadable shown error)
  | .ok content => (survey content (parse content)).fault.map (.scan ∘ .undecodable)

theorem found_of_read_eq_error {e : Entry} {error : ReadError} (h : e.read = .error error) :
    e.found parse = [] := by
  rw [found, h]

theorem fault?_of_read_eq_error {e : Entry} {error : ReadError} (h : e.read = .error error)
    (shown : String) : e.fault? parse shown = some (.unreadable shown error) := by
  rw [fault?, h]

theorem owned_found (e : Entry) : Owned [] (e.found parse) := by
  rw [found]
  cases e.read with
  | error error => trivial
  | ok content => exact owned_survey content (parse content)

end Entry

namespace Catalog

/-! ## Registered names stay -/

theorem prefix_names_insert (c : Catalog) (d : TypeDecl) : c.names <+: (c.insert d).names := by
  rw [names_insert]
  split
  · exact List.prefix_rfl
  · exact List.prefix_append _ _

theorem prefix_names_register {c after : Catalog} {r : Registration}
    (h : c.register r = .ok after) : c.names <+: after.names := by
  cases r with
  | type d =>
      rw [← Except.ok.inj h]
      exact prefix_names_insert c d
  | method owner m =>
      rw [register, addMethod] at h
      cases hget : c.get? owner with
      | none =>
          rw [hget] at h
          contradiction
      | some d =>
          rw [hget] at h
          rw [← Except.ok.inj h]
          exact prefix_names_insert c _

theorem prefix_names_registerAll (c : Catalog) (found : List Registration) :
    c.names <+: (c.registerAll found).value.catalog.names := by
  induction found generalizing c with
  | nil => exact List.prefix_rfl
  | cons r rest ih =>
      rw [registerAll]
      split
      next => exact List.prefix_rfl
      next after h => exact (prefix_names_register h).trans (ih after)

/-- What is found begins with a type, whose name is registered. -/
theorem registerAll_empty_eq_empty_iff {found : List Registration} (h : Owned [] found) :
    (empty.registerAll found).value.catalog = empty ↔ found = [] := by
  refine ⟨?_, fun hnil => hnil ▸ rfl⟩
  intro hempty
  cases found with
  | nil => rfl
  | cons r rest =>
      -- a method in front of all types would belong to none of them
      cases r with
      | method owner m => exact absurd h.1 List.not_mem_nil
      | type d =>
          have hprefix := prefix_names_registerAll (empty.insert d) rest
          have hnames : ((empty.insert d).registerAll rest).value.catalog.names = [] :=
            congrArg names hempty
          rw [hnames, List.prefix_nil, names_insert] at hprefix
          simp [empty, names] at hprefix

/-! ## Files and directories -/

theorem value_registerAll_found (c : Catalog) (e : Entry) :
    (c.registerAll (e.found parse)).value.catalog = c.merge (e.declared parse) := by
  have hregister : e.declared parse = (empty.registerAll (e.found parse)).value.catalog := by
    rw [Entry.declared, Entry.found]
    cases e.read with
    | error error => rfl
    | ok content => rfl
  rw [hregister]
  exact (registerAll_merge c empty (e.owned_found parse)).1

/-- An entry registers what is found in it, and then its fault is reported. -/
theorem scanEntry_eq (c : Catalog) (shown : String) (e : Entry) :
    c.scanEntry parse shown e = do
      let scanned ← c.registerAll (e.found parse)
      (e.fault? parse shown).forM fun fault => Logged.tell (.failedScan shown fault.message)
      return scanned.catalog := by
  rw [scanEntry, Entry.found, Entry.fault?]
  cases e.read with
  | error error => rfl
  | ok content =>
      have hnone : (c.registerAll (survey content (parse content)).found).value.fault = none :=
        (registerAll_merge c empty (owned_survey content (parse content))).2
      dsimp only
      rw [scan, scanTree, bind_assoc]
      refine Logged.bind_congr ?_
      simp only [hnone]
      cases (survey content (parse content)).fault with
      | none => rfl
      | some fault => rfl

/-- An entry is as good as absent exactly if nothing is found in it. -/
theorem merge_declared_iff (e : Entry) :
    (∀ c : Catalog, c.merge (e.declared parse) = c) ↔ e.found parse = [] := by
  refine ⟨?_, ?_⟩
  · intro h
    rw [← registerAll_empty_eq_empty_iff (e.owned_found parse), value_registerAll_found, h]
  · intro h c
    rw [← value_registerAll_found, h]
    rfl

/-- Entries in which nothing is found may be left out. -/
theorem value_scanEntries_filter (c : Catalog) (keep : String × Entry → Bool)
    {files : List (String × Entry)}
    (h : ∀ file ∈ files, keep file = false → file.2.found parse = []) :
    (c.scanEntries parse (files.filter keep)).value = (c.scanEntries parse files).value := by
  induction files generalizing c with
  | nil => rfl
  | cons file rest ih =>
      rw [List.forall_mem_cons] at h
      have hcons (files : List (String × Entry)) :
          (c.scanEntries parse (file :: files)).value =
            ((c.merge (file.2.declared parse)).scanEntries parse files).value := by
        rw [value_scanEntries, value_scanEntries, List.map_cons, List.foldl_cons]
      rw [List.filter_cons, hcons]
      split
      next => rw [hcons, ih _ h.2]
      next hkeep =>
        have hnothing : file.2.found parse = [] := h.1 (by simpa using hkeep)
        rw [(merge_declared_iff parse file.2).mpr hnothing, ih _ h.2]

/-- The files and directories that a scan of a directory visits, and the names they are shown
under. -/
def visited (directory : Path) (tree : Entry) (pattern : Pattern) : List (String × Entry) :=
  (tree.glob pattern).filterMap fun path =>
    (tree.get? path).map (Path.render (directory ++ path), ·)

/-- A file that is not read to its end leaves a warning, and whatever was found in front of its
fault is registered. So it leaves every catalog as it was exactly if nothing was found there, as in
a file that cannot be read at all, and scanning a directory gives the same catalog as without the
files of which this is true. -/
theorem scanDirectory_failing (c : Catalog) (directory : Path) (tree : Entry) (pattern : Pattern) :
    (∀ shown e fault, e.fault? parse shown = some fault →
      (c.scanEntry parse shown e).value = (c.registerAll (e.found parse)).value.catalog ∧
        .failedScan shown fault.message ∈ (c.scanEntry parse shown e).log ∧
        ((∀ other : Catalog, (other.scanEntry parse shown e).value = other) ↔
          e.found parse = [])) ∧
      (∀ shown e error, e.read = .error error →
        e.fault? parse shown = some (.unreadable shown error) ∧
          (c.scanEntry parse shown e).value = c) ∧
      (c.scanDirectory parse directory tree pattern).value =
        (c.scanEntries parse ((visited directory tree pattern).filter fun (shown, e) =>
          (e.fault? parse shown).isNone || !(e.found parse).isEmpty)).value := by
  refine ⟨?_, ?_, ?_⟩
  · intro shown e fault hfault
    refine ⟨?_, ?_, ?_⟩
    · rw [value_scanEntry, value_registerAll_found]
    · simp [scanEntry_eq, hfault, Logged.tell]
    · simp only [value_scanEntry]
      exact merge_declared_iff parse e
  · intro shown e error herror
    refine ⟨e.fault?_of_read_eq_error parse herror shown, ?_⟩
    rw [value_scanEntry]
    exact (merge_declared_iff parse e).mpr (e.found_of_read_eq_error parse herror) c
  · refine (value_scanEntries_filter parse c _ ?_).symm
    intro file _ hkeep
    simp only [Bool.or_eq_false_iff, Bool.not_eq_false'] at hkeep
    exact List.isEmpty_iff.mp hkeep.2

/-- An interface with two methods. The result type of the second one holds a comment of one
byte. -/
def twoMethods (comment : UInt8) : List UInt8 :=
  Text.Utf8.encode "interface A \x7b void f(); List</*" ++ comment ::
    Text.Utf8.encode "*/String> g(); \x7d"

/-- The parameters of a method without parameters. -/
def noParameters (start : Nat) : Node :=
  ⟨"formal_parameters", true, start, start + 2, some "parameters",
    [⟨"(", false, start, start + 1, none, []⟩, ⟨")", false, start + 1, start + 2, none, []⟩]⟩

/-- The tree of the interface. -/
def twoMethodsTree : Node :=
  ⟨"program", true, 0, 48, none,
    [⟨"interface_declaration", true, 0, 48, none,
      [⟨"interface", false, 0, 9, none, []⟩,
        ⟨"identifier", true, 10, 11, some "name", []⟩,
        ⟨"interface_body", true, 12, 48, some "body",
          [⟨"\x7b", false, 12, 13, none, []⟩,
            ⟨"method_declaration", true, 14, 23, none,
              [⟨"void_type", true, 14, 18, some "type", []⟩,
                ⟨"identifier", true, 19, 20, some "name", []⟩,
                noParameters 20,
                ⟨";", false, 22, 23, none, []⟩]⟩,
            ⟨"method_declaration", true, 24, 46, none,
              [⟨"generic_type", true, 24, 41, some "type",
                [⟨"type_identifier", true, 24, 28, none, []⟩,
                  ⟨"type_arguments", true, 28, 41, none,
                    [⟨"<", false, 28, 29, none, []⟩,
                      ⟨"block_comment", true, 29, 34, none, []⟩,
                      ⟨"type_identifier", true, 34, 40, none, []⟩,
                      ⟨">", false, 40, 41, none, []⟩]⟩]⟩,
                ⟨"identifier", true, 42, 43, some "name", []⟩,
                noParameters 43,
                ⟨";", false, 45, 46, none, []⟩]⟩,
            ⟨"\x7d", false, 47, 48, none, []⟩]⟩]⟩]⟩

def javaFiles : Pattern :=
  ⟨[.anyDepth, .exactly "A.java"]⟩

example : ((empty.scanTree (twoMethods 0x20) twoMethodsTree).value.catalog.types.map fun d =>
    (d.qualifiedName, d.methods.map MethodDecl.name)) = [("A", ["f", "g"])] := by
  decide +kernel

theorem scanDirectory_failing_partial :
    (Entry.file (twoMethods 0xff)).fault? (fun _ => twoMethodsTree) "A.java" =
        some (.scan (.undecodable ⟨0xff, 7, 1, .startByte⟩)) ∧
      (empty.scanEntry (fun _ => twoMethodsTree) "A.java" (.file (twoMethods 0xff))).value =
        (empty.registerAll [.type ⟨"A", "", [], [], true, []⟩,
          .method "A" ⟨"f", [], "void", []⟩]).value.catalog ∧
      (empty.scanEntry (fun _ => twoMethodsTree) "A.java"
        (.unreadable ⟨13, "Permission denied"⟩)).value = empty := by
  have hfault : (Entry.file (twoMethods 0xff)).fault? (fun _ => twoMethodsTree) "A.java" =
      some (.scan (.undecodable ⟨0xff, 7, 1, .startByte⟩)) := by
    decide +kernel
  have hfound : (Entry.file (twoMethods 0xff)).found (fun _ => twoMethodsTree) =
      [.type ⟨"A", "", [], [], true, []⟩, .method "A" ⟨"f", [], "void", []⟩] := by
    decide +kernel
  refine ⟨hfault, ?_, ?_⟩
  · rw [← hfound]
    exact ((scanDirectory_failing _ empty [] Entry.empty javaFiles).1 _ _ _ hfault).1
  · exact ((scanDirectory_failing _ empty [] Entry.empty javaFiles).2.1 _ _ _ rfl).2

/-- A file that is not read to its end is not as good as absent: its interface stays registered
with the first of its methods only. -/
theorem scanDirectory_partly_registered :
    (empty.scanDirectory (fun _ => twoMethodsTree) []
        (.directory [("A.java", .file (twoMethods 0xff))]) javaFiles).value.types =
        [⟨"A", "", [], [], true, [⟨"f", [], "void", []⟩]⟩] ∧
      (empty.scanDirectory (fun _ => twoMethodsTree) [] (.directory [])
        javaFiles).value.types = [] := by
  have hglob : (Entry.directory [("A.java", .file (twoMethods 0xff))]).glob javaFiles =
      [["A.java"]] := by
    have hselect : ((Entry.directory [("A.java", .file (twoMethods 0xff))]).select []
        javaFiles.names).eraseDups = [["A.java"]] := by
      decide +kernel
    rw [Entry.glob, hselect, List.mergeSort_singleton]
  have hnothing : (Entry.directory []).glob javaFiles = [] := by
    have hselect : ((Entry.directory []).select [] javaFiles.names).eraseDups = [] := by
      decide +kernel
    rw [Entry.glob, hselect, List.mergeSort_nil]
  refine ⟨?_, ?_⟩
  · rw [scanDirectory, hglob]
    decide +kernel
  · rw [scanDirectory, hnothing]
    rfl

end Catalog

end MethodSig
