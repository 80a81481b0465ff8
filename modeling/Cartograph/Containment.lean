import Cartograph.Arrangement.Inversion

/-!
# Containment

Two containers of a node are *nested* if one can be reached from the other. A graph can be drawn
if any two containers of a node are nested (`checkShared`); an edge from an outer container to
what an inner one holds as well is redundant and can go (`prune`).
-/

namespace Cartograph.Containment

open Arrangement Rules

/-- Whether one of two nodes can be reached from the other. -/
def nested (g : Graph) (a b : NodeId) : Bool :=
  (g.ancestors a).contains b || (g.ancestors b).contains a

/-- The first two members of a list that are not nested. -/
def firstUnrelated (g : Graph) : List NodeId → Option (NodeId × NodeId)
  | [] => none
  | a :: rest =>
    match rest.find? fun b => !nested g a b with
    | some b => some (a, b)
    | none => firstUnrelated g rest

/-- The first two containers among some nodes that are not nested, in order. -/
def unrelated? (p : Providers) (g : Graph) (nodes : List NodeId) : Option (NodeId × NodeId) :=
  firstUnrelated g ((nodes.filter fun n => p.isGroup (g.typeOf n)).mergeSort fun a b => !(b < a))

/-- Fails if a node has two containers that are not nested. -/
def checkShared (p : Providers) (g : Graph) : Except Error Unit :=
  match g.parentIndex.findSome? fun (child, parents) =>
      (unrelated? p g parents).map fun (a, b) => (a, b, child) with
  | some (a, b, child) => .error (.sharedChild "validate" a b child)
  | none => .ok ()

/-- Whether a child of a container is also in a container inside it. -/
def isRedundant (p : Providers) (g : Graph) (container child : NodeId) : Bool :=
  (g.parents child).any fun q =>
    -- The outer container is among the ancestors of the inner one.
    q ≠ container && p.isGroup (g.typeOf q) && (g.ancestors q).contains container

/-- Removes the edges from a container to what is also in a container inside it. -/
def pruneAt (p : Providers) (g : Graph) (container : NodeId) : Graph :=
  eachSilent (fun g child =>
    if isRedundant p g container child then (g.removeEdge container child).1 else g)
    (g.children container) g

/-- Removes all redundant edges from containers. -/
def prune (p : Providers) (g : Graph) : Graph :=
  eachSilent (pruneAt p) (g.sortedNodes.filter fun n => p.isGroup (g.typeOf n)) g

end Cartograph.Containment
