import Cartograph.Arrangement.Step

/-!
# Merging nodes

All nodes that a pattern matches become one. The one takes over their children, and their place
under their parents.
-/

namespace Cartograph.Arrangement

/-- The metadata of a node that stands for several, from that of the first. -/
def mergedMeta (target : NodeId) (first : Option NodeMeta) : NodeMeta :=
  let fresh := NodeMeta.forId target
  { first.getD NodeMeta.empty with
    resourceType := fresh.resourceType
    name := fresh.name
    module := fresh.module
    cardinality := 1
    instances := []
    instanceKeys := []
    edgeLabels := [] }

/-- Merges a node into another. -/
def absorb (target : NodeId) (g : Graph) (node : NodeId) : Graph :=
  let g := addChildren target (g.children node) g
  let g := eachSilent (fun g q => (g.replaceChild q node target).1)
    ((g.parents node).filter (· ≠ target)) g
  (g.removeNode node).1

/-- Merges the nodes that a pattern matches into one, which is made if it is missing. -/
def consolidate (pattern : Pattern) (target : NodeId) (g : Graph) : Graph :=
  match (g.nodesMatching pattern).filter (· ≠ target) with
  | [] => g
  | first :: rest =>
    let g := if g.contains target then g
      else g.insertNode target (mergedMeta target (g.meta? first))
    eachSilent (absorb target) (first :: rest) g

end Cartograph.Arrangement
