import Cartograph.Graph

/-!
# Output documents

A finished graph as a JSON document: the title if there is one, the provider, the children of each
node, and the metadata. Nothing in it belongs to a single run, so equal graphs have equal documents.
-/

namespace Cartograph.Graph

/-- The children of each node as a mapping. -/
def adjacencyDocument (g : Graph) : Document :=
  .object (g.adjacency.map fun (node, children) => (node, .list (children.map .text)))

/-- The metadata as a mapping. -/
def metadataDocument (g : Graph) : Document :=
  .object (g.metadata.map fun (node, m) => (node, m.toDocument))

/-- The record of a graph. -/
def toDocument (g : Graph) : Document :=
  .object <|
    (g.title.map fun t => ("title", .text t)).toList
    ++ [("provider", .text g.provider), ("graph", g.adjacencyDocument),
      ("metadata", g.metadataDocument)]

/-- The output document. -/
def render (g : Graph) : String := Json.pretty g.toDocument

end Cartograph.Graph
