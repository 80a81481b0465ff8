import Cartograph.Graph

/-!
# Statistics of a graph

How large a graph is, and whether a chain of edges leads back to its beginning
(`Graph.isCyclic`).
-/

namespace Cartograph

/-- The size of a graph. -/
structure Statistics where
  nodes : Nat
  edges : Nat
  hidden : Nat
  synthetic : Nat
  resourceTypes : Nat
  cyclic : Bool
  deriving Repr, DecidableEq

namespace Graph

/-- Whether some node can be reached from its own children. -/
def isCyclic (g : Graph) : Bool :=
  g.nodes.any fun node => (reach g.children g.nodes (g.children node)).contains node

/-- The statistics of a graph. -/
def statistics (g : Graph) : Statistics where
  nodes := g.size
  edges := g.edgeCount
  hidden := (g.metadata.filter fun (_, m) => m.hidden).length
  synthetic := (g.metadata.filter fun (_, m) => m.synthetic).length
  resourceTypes := (Keyed.keySet (g.nodes.map g.typeOf)).length
  cyclic := g.isCyclic

end Graph

namespace Statistics

/-- The line of statistics in outputs. -/
def text (s : Statistics) : String :=
  toString s.nodes ++ " nodes (" ++ toString s.hidden ++ " hidden, " ++ toString s.synthetic
    ++ " synthetic), " ++ toString s.edges ++ " edges, " ++ toString s.resourceTypes
    ++ " resource types" ++ (if s.cyclic then ", cyclic" else "")

/-- The record of statistics. -/
def toDocument (s : Statistics) : Document :=
  .object [("total_nodes", .int s.nodes), ("total_edges", .int s.edges),
    ("hidden_nodes", .int s.hidden), ("synthetic_nodes", .int s.synthetic),
    ("resource_types", .int s.resourceTypes), ("cyclic", .bool s.cyclic)]

end Statistics

end Cartograph
