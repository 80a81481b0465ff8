import Cartograph.Document
import Cartograph.NodeId

/-!
# Diagnostics

A finding that does not stop a run: what was approximated, left out or could not be resolved. It may
name the node it is about.
-/

namespace Cartograph

/-- What a finding is about. -/
inductive Diagnostic.Kind
  /-- An expression could not be reduced to a value. -/
  | unresolved
  /-- Expressions refer to each other in a circle. -/
  | referenceCycle
  /-- The text of an expression is malformed. -/
  | malformed
  /-- No provider knows a resource type. -/
  | unknownResourceType
  /-- A pairing or placement is a best guess. -/
  | approximation
  /-- There was nothing to act on, or a node is missing. -/
  | skipped
  /-- An annotation left a child in two unrelated containers. -/
  | sharedChild
  deriving Repr, DecidableEq

/-- The name of a kind in outputs. -/
def Diagnostic.Kind.name : Diagnostic.Kind → String
  | unresolved => "unresolved"
  | referenceCycle => "reference_cycle"
  | malformed => "syntax"
  | unknownResourceType => "unknown_resource_type"
  | approximation => "approximation"
  | skipped => "skipped"
  | sharedChild => "shared_child"

/-- A finding. -/
structure Diagnostic where
  kind : Diagnostic.Kind
  node : Option NodeId
  message : String
  deriving Repr, DecidableEq

namespace Diagnostic

/-- The line of a finding in outputs. -/
def text (d : Diagnostic) : String :=
  match d.node with
  | some n => "[" ++ d.kind.name ++ "] " ++ n ++ ": " ++ d.message
  | none => "[" ++ d.kind.name ++ "] " ++ d.message

/-- The record of a finding. -/
def toDocument (d : Diagnostic) : Document :=
  .object <| [("kind", .text d.kind.name)]
    ++ (d.node.map fun n => ("node", .text n)).toList
    ++ [("message", .text d.message)]

end Diagnostic

end Cartograph
