import Cartograph.Arrangement.Inversion

/-!
# Placing nodes

Moving nodes into the nearest node of a kind, putting them into a container, adding and removing
edges between two sets of nodes, pairing instances by their numbers, and removing nodes.
-/

namespace Cartograph.Arrangement

open Rules

/-! ### Moving -/

/-- The nodes at edges to or from a node. -/
def neighbours (g : Graph) (node : NodeId) : List NodeId := g.children node ++ g.parents node

/-- The nodes one step further than a frontier, without those that have been seen. -/
def ring (g : Graph) (seen frontier : List NodeId) : List NodeId :=
  (Keyed.keySet (frontier.flatMap (neighbours g))).filter (· ∉ seen)

/-- The one of several nodes that a node goes with: with the same number, else the first. -/
def bestMatch? (node : NodeId) (hits : List NodeId) : Option NodeId :=
  let own := NodeId.suffix? node
  let sameNumber := if own.isSome then hits.find? fun h => NodeId.suffix? h = own else none
  sameNumber.or hits.head?

/-- The node within two steps that a pattern matches, nearer ones first. -/
def nearest? (g : Graph) (node : NodeId) (target : Pattern) : Option NodeId :=
  let hitsIn := fun nodes : List NodeId =>
    bestMatch? node (nodes.filter fun m => target.matchesNode m (g.meta? m))
  let first := ring g [node] [node]
  -- A node in the second ring counts only if there is none in the first.
  (hitsIn first).or (hitsIn (ring g (node :: first) first))

/-- Moves a node into the nearest one that a pattern matches, out of all other containers. -/
def moveInto (p : Providers) (target : Pattern) (g : Graph) (node : NodeId) : Outcome :=
  match nearest? g node target with
  | none => (g, [skipped (some node) ("no '" ++ target.text ++ "' nearby to move into")])
  | some place =>
    let g := removeParents ((groupParents p g node).filter (· ≠ place)) node g
    (((g.removeEdge node place).1.addEdge place node).1, [])

/-- Moves the nodes that a pattern matches. -/
def move (p : Providers) (pattern target : Pattern) (g : Graph) : Outcome :=
  each (moveInto p target) (g.nodesMatching pattern) g

/-! ### Grouping -/

/-- Puts a node into a container, out of all others. -/
def putInto (p : Providers) (container : NodeId) (g : Graph) (node : NodeId) : Graph :=
  let g := removeParents ((groupParents p g node).filter (· ≠ container)) node g
  (g.addEdge container node).1

/-- The metadata of a node that is made up for a graph. -/
def madeUpMeta (g : Graph) (node : NodeId) : NodeMeta :=
  { NodeMeta.forSynthetic node with provider := g.provider }

/-- Puts the nodes that patterns match into a container, which is made if it is missing. -/
def group (p : Providers) (container : NodeId) (members : List Pattern) (g : Graph) : Graph :=
  match (Keyed.keySet (members.flatMap g.nodesMatching)).filter (· ≠ container) with
  | [] => g
  | found =>
    let g := if g.contains container then g
      else g.insertNode container (madeUpMeta g container)
    eachSilent (putInto p container) found g

/-! ### Edges between sets -/

/-- Adds or removes all edges from the nodes of one pattern to those of another. -/
def relink (source target : Pattern) (action : LinkAction) (g : Graph) : Outcome :=
  let sources := g.nodesMatching source
  let targets := g.nodesMatching target
  if sources = [] ∨ targets = [] then
    (g, [skipped none ("relink " ++ source.text ++ " -> " ++ target.text ++ " matched nothing")])
  else
    let step := fun g (a, b) => match action with
      | .add => (g.addEdge a b).1
      | .remove => (g.removeEdge a b).1
    (eachSilent step (sources.flatMap fun a => targets.map fun b => (a, b)) g, [])

/-- Whether a node that a pattern matches has another number. -/
def isCross (second : Pattern) (number : Nat) (g : Graph) (node : NodeId) : Bool :=
  second.matchesNode node (g.meta? node) && (NodeId.suffix? node).any (· ≠ number)

/-- Removes the edges between an instance and those of a pattern with other numbers. -/
def uncross (second : Pattern) (g : Graph) (node : NodeId) : Graph :=
  match NodeId.suffix? node with
  | none => g
  | some n =>
    let g := eachSilent (fun g b => (g.removeEdge node b).1)
      ((g.children node).filter (isCross second n g)) g
    removeParents ((g.parents node).filter (isCross second n g)) node g

/-- Removes the edges between instances of two patterns with different numbers. -/
def matchBySuffix (first second : Pattern) (g : Graph) : Graph :=
  eachSilent (uncross second) (g.nodesMatching first) g

/-! ### Removing -/

/-- Adds an edge from every parent of a node to every child of it. -/
def bridge (g : Graph) (node : NodeId) : Graph :=
  eachSilent (fun g q => addChildren q (g.children node) g) (g.parents node) g

/-- Removes the nodes that a pattern matches; with `keepEdges` their parents take over their
    children. -/
def delete (pattern : Pattern) (keepEdges : Bool) (g : Graph) : Graph :=
  eachSilent (fun g node => ((if keepEdges then bridge g node else g).removeNode node).1)
    (g.nodesMatching pattern) g

end Cartograph.Arrangement
