import MethodSig.Source.Declarations

/-!
# Surveying a syntax tree

A survey finds the declared types of a compilation unit and their methods, each type before its
methods and these before the types inside it. It ends at the first text that cannot be decoded.
-/

namespace MethodSig.Source

open Text

/-- Something to be registered. -/
inductive Registration where
  /-- A type, still without methods. -/
  | type (d : TypeDecl)
  | method (owner : String) (m : MethodDecl)
deriving DecidableEq

/-- What is found in a tree, in order, and what put an end to it. -/
structure Survey where
  found : List Registration
  /-- What put an end to the survey, if it came to an early end. -/
  fault : Option Utf8.Fault
deriving DecidableEq

namespace Survey

def empty : Survey :=
  ⟨[], none⟩

def one (r : Registration) : Survey :=
  ⟨[r], none⟩

/-- One survey and then another, unless the first came to an early end. -/
def andThen (a b : Survey) : Survey :=
  match a.fault with
  | some _ => a
  | none => ⟨a.found ++ b.found, b.fault⟩

instance : Append Survey := ⟨andThen⟩

/-- The survey that goes on with a value, or comes to its end in its place. -/
def after {α : Type} (x : Except Utf8.Fault α) (onward : α → Survey) : Survey :=
  match x with
  | .ok a => onward a
  | .error fault => ⟨[], some fault⟩

end Survey

/-- The source file that is surveyed. -/
structure File where
  source : List UInt8
  package : String
  imports : List String

def typeDeclarations : List String :=
  ["class_declaration", "interface_declaration", "enum_declaration", "record_declaration"]

def typeBodies : List String :=
  ["class_body", "interface_body", "enum_body", "enum_body_declarations"]

namespace File

/-- The qualified name of a type in the given outer type; no outer type if that is empty. -/
def qualify (f : File) (outer name : String) : String :=
  if !outer.isEmpty then outer ++ "." ++ name
  else if !f.package.isEmpty then f.package ++ "." ++ name
  else name

def typeDecl (f : File) (qualifiedName : String) (n : Node) : Except Utf8.Fault TypeDecl := do
  let supertypes ← n.supertypes f.source
  return ⟨qualifiedName, f.package, f.imports, supertypes, n.type = "interface_declaration", []⟩

def methods (f : File) (owner : String) : List Node → Survey
  | [] => .empty
  | n :: rest =>
    have := n.sizeOf_children_lt
    let here :=
      if n.type = "enum_body_declarations" then f.methods owner n.children
      else if n.type = "method_declaration" then
        .after (n.methodDecl? f.source) fun found =>
          (found.map fun m => .one (.method owner m)).getD .empty
      else .empty
    here ++ f.methods owner rest
termination_by members => sizeOf members
decreasing_by
  all_goals simp only [List.cons.sizeOf_spec]; omega

/-- Finds the types among some nodes, and what these types hold. -/
def types (f : File) (outer : String) : List Node → Survey
  | [] => .empty
  | n :: rest =>
    have := n.sizeOf_children_lt
    let here :=
      if typeDeclarations.contains n.type then
        match n.field? "name" with
        | none => .empty
        | some nameNode =>
          .after (nameNode.text f.source) fun name =>
            let qualifiedName := f.qualify outer name
            .after (f.typeDecl qualifiedName n) fun d =>
              .one (.type d) ++
                match h : n.field? "body" with
                | none => .empty
                | some body =>
                  have := Node.sizeOf_field?_lt h
                  have := body.sizeOf_children_lt
                  f.methods qualifiedName body.children ++ f.types qualifiedName body.children
      else if typeBodies.contains n.type then f.types outer n.children
      else .empty
    here ++ f.types outer rest
termination_by nodes => sizeOf nodes
decreasing_by
  all_goals simp only [List.cons.sizeOf_spec]; omega

end File

def survey (source : List UInt8) (root : Node) : Survey :=
  .after (root.package source) fun package =>
    .after (root.imports source) fun imports =>
      (File.mk source package imports).types "" root.children

end MethodSig.Source
