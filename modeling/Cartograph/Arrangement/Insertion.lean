import Cartograph.Arrangement.Step
import Cartograph.Operation

/-!
# Putting nodes between parents and children

For each child of a kind under a parent of a kind, a node in between that is named by an attribute
of the child. Children with the same name share their node; the node takes the child's place under
the parent and holds the child.
-/

namespace Cartograph

namespace NameGenerator

/-- The text that a value gives as a name: of a list the first text. -/
def nameIn? : Value → Option String
  | .list items => items.findSome? Value.asText?
  | .unresolved _ => none
  | .null => none
  | .map _ => none
  | v => some v.toText

/-- The text that names the node for a child. -/
def text? (n : NameGenerator) (m : Option NodeMeta) : Option String :=
  let given := (m.bind fun m => Keyed.find? n.key m.attributes).bind nameIn?
  (given.filter (· ≠ "")).or n.fallback

/-- The identifier of the node for a child, in the child's module. -/
def nodeId? (n : NameGenerator) (child : NodeId) (m : Option NodeMeta) : Option NodeId :=
  (n.text? m).bind fun t =>
    let name := NodeId.sanitize (n.start ++ t)
    if name = "" then none
    else
      let base := NodeId.qualified ((m.map (·.module)).getD "") n.resourceType name
      match n.includeSuffix, NodeId.suffix? child with
      | true, some i => some (NodeId.withSuffix base i)
      | _, _ => some base

/-- The metadata of the node for a child: the child's attributes, but a single made-up node. -/
def metaFor (n : NameGenerator) (id child : NodeId) (m : Option NodeMeta) : NodeMeta :=
  let fresh := NodeMeta.forSynthetic id
  { m.getD (NodeMeta.forId child) with
    resourceType := fresh.resourceType
    name := fresh.name
    module := fresh.module
    synthetic := true
    hidden := false
    cardinality := 1
    instances := []
    instanceKeys := []
    variant := none
    edgeLabels := []
    label := n.text? m }

end NameGenerator

namespace Arrangement

/-- Puts a node between a parent and one of its children. -/
def insertAbove (generator : NameGenerator) (parent : NodeId) (g : Graph) (child : NodeId) :
    Outcome :=
  match generator.nodeId? child (g.meta? child) with
  | none =>
    (g, [skipped (some child)
      ("no '" ++ generator.key ++ "' value to name an intermediate node")])
  | some id =>
    if id = parent ∨ id = child then (g, [])
    else
      -- A node that is there already is shared as it is.
      let g := if g.contains id then g
        else g.insertNode id (generator.metaFor id child (g.meta? child))
      (((g.replaceChild parent child id).1.addEdge id child).1, [])

/-- Puts nodes between the parents and the children that two patterns match. -/
def insertIntermediate (parent child : Pattern) (generator : NameGenerator) (g : Graph) : Outcome :=
  each (fun g p =>
    each (insertAbove generator p)
      ((g.children p).filter fun c => child.matchesNode c (g.meta? c)) g)
    (g.nodesMatching parent) g

end Arrangement

end Cartograph
