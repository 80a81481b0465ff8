import Cartograph.NodeMeta
import Cartograph.Pattern
import Cartograph.Reachability

/-!
# Graphs

A graph has nodes in the order in which they came, each with its children in order, and metadata
by node. The two are kept side by side: a graph is *well formed* if they have the same nodes,
every child is a node, no node has a child twice, and none is its own child (`Graph.WellFormed`).
The mutators below keep graphs well formed; `Graph.checkIntegrity` looks for the first place where
metadata or a child is missing.

Mutators return the new graph and whether they changed its shape. Adding an edge makes missing ends;
what an edge or node takes with it when it goes are the labels of its edges.
-/

namespace Cartograph

/-- Nodes with children and metadata. -/
structure Graph where
  /-- The children of each node, in the order of the nodes. -/
  adjacency : List (NodeId × List NodeId)
  /-- Metadata by node, sorted. -/
  metadata : List (NodeId × NodeMeta)
  /-- The provider that most resources belong to. -/
  provider : String
  title : Option String

namespace Graph

/-- A graph without nodes. -/
def empty (provider : String) : Graph := ⟨[], [], provider, none⟩

/-! ### Queries -/

/-- The nodes in their order. -/
def nodes (g : Graph) : List NodeId := g.adjacency.map (·.1)

/-- Whether a graph has a node. -/
def contains (g : Graph) (node : NodeId) : Bool := Keyed.contains node g.adjacency

/-- The number of nodes. -/
def size (g : Graph) : Nat := g.adjacency.length

/-- The metadata of a node. -/
def meta? (g : Graph) (node : NodeId) : Option NodeMeta := Keyed.find? node g.metadata

/-- The children of a node in order. -/
def children (g : Graph) (node : NodeId) : List NodeId :=
  (Keyed.find? node g.adjacency).getD []

/-- Whether there is an edge. -/
def hasEdge (g : Graph) (source target : NodeId) : Bool := (g.children source).contains target

/-- The nodes with a given child, in order. -/
def parents (g : Graph) (node : NodeId) : List NodeId :=
  g.adjacency.filterMap fun (parent, children) =>
    if children.contains node then some parent else none

/-- All edges in order. -/
def edges (g : Graph) : List (NodeId × NodeId) :=
  g.adjacency.flatMap fun (source, targets) => targets.map fun target => (source, target)

/-- The number of edges. -/
def edgeCount (g : Graph) : Nat := g.edges.length

/-- The nodes other than a given one from which it can be reached. -/
def ancestors (g : Graph) (node : NodeId) : List NodeId :=
  reach g.parents (g.nodes.erase node) (g.parents node)

/-- The resource type of a node. -/
def typeOf (g : Graph) (node : NodeId) : String := NodeMeta.typeOf node (g.meta? node)

/-- All nodes, sorted. -/
def sortedNodes (g : Graph) : List NodeId := Keyed.keySet g.nodes

/-- The nodes that a pattern matches, sorted. -/
def nodesMatching (g : Graph) (p : Pattern) : List NodeId :=
  g.sortedNodes.filter fun node => p.matchesNode node (g.meta? node)

/-- The nodes of a resource type, sorted. -/
def nodesOfType (g : Graph) (resourceType : String) : List NodeId :=
  g.sortedNodes.filter fun node => g.typeOf node = resourceType

/-- The beginnings of all edges to a node, in order. -/
def sourcesOf (g : Graph) (node : NodeId) : List NodeId :=
  g.edges.filterMap fun (source, target) => if target = node then some source else none

/-- Every child with the beginnings of its edges, sorted by child. -/
def parentIndex (g : Graph) : List (NodeId × List NodeId) :=
  (Keyed.keySet (g.edges.map (·.2))).map fun child => (child, g.sourcesOf child)

/-! ### Nodes -/

/-- Puts a node into the graph; one that is there keeps its edges and gets new metadata. -/
def insertNode (g : Graph) (node : NodeId) (m : NodeMeta) : Graph :=
  { g with
    adjacency := if g.contains node then g.adjacency else g.adjacency ++ [(node, [])]
    metadata := Keyed.insert node m g.metadata }

/-- Makes a node, with the metadata that its identifier says, unless it is there. -/
def ensureNode (g : Graph) (node : NodeId) : Graph × Bool :=
  ({ g with
    adjacency := if g.contains node then g.adjacency else g.adjacency ++ [(node, [])]
    metadata := if Keyed.contains node g.metadata then g.metadata
      else Keyed.insert node (NodeMeta.forId node) g.metadata }, !g.contains node)

/-- Changes the metadata of a node; a node without gets what its identifier says first. -/
def modifyMeta (g : Graph) (node : NodeId) (f : NodeMeta → NodeMeta) : Graph :=
  match g.meta? node with
  | some m => { g with metadata := Keyed.insert node (f m) g.metadata }
  | none =>
    if g.contains node then
      { g with metadata := Keyed.insert node (f (NodeMeta.forId node)) g.metadata }
    else g

/-- Changes the metadata of all nodes. -/
def mapMeta (g : Graph) (f : NodeMeta → NodeMeta) : Graph :=
  { g with metadata := g.metadata.map fun (node, m) => (node, f m) }

/-- Metadata without the label of the edge to a child. -/
def dropLabel (child : NodeId) (m : NodeMeta) : NodeMeta :=
  { m with edgeLabels := Keyed.erase child m.edgeLabels }

/-- Removes a node and all edges at it. -/
def removeNode (g : Graph) (node : NodeId) : Graph × Bool :=
  ({ g with
    adjacency := (Keyed.erase node g.adjacency).map fun (n, children) =>
      (n, children.filter (· ≠ node))
    metadata := (Keyed.erase node g.metadata).map fun (n, m) => (n, dropLabel node m) },
    g.contains node)

/-- Another name in place of one. -/
def renamed (old new : NodeId) (node : NodeId) : NodeId := if node = old then new else node

/-- Metadata with the label of the edge to one child moved to another. -/
def moveLabel (old new : NodeId) (m : NodeMeta) : NodeMeta :=
  match Keyed.find? old m.edgeLabels with
  | some label => { m with edgeLabels := Keyed.insert new label (Keyed.erase old m.edgeLabels) }
  | none => m

/-- Renames a node wherever it stands, in its place. Refused if the new name is taken. -/
def renameNode (g : Graph) (old new : NodeId) : Graph × Bool :=
  if old = new ∨ !g.contains old ∨ g.contains new then (g, false)
  else
    let metadata := match g.meta? old with
      | some m => Keyed.insert new m (Keyed.erase old g.metadata)
      | none => g.metadata
    ({ g with
      adjacency := g.adjacency.map fun (n, children) =>
        (renamed old new n, children.map (renamed old new))
      metadata := metadata.map fun (n, m) => (n, moveLabel old new m) }, true)

/-! ### Edges -/

/-- Changes the children of a node that is there. -/
def setChildren (g : Graph) (node : NodeId) (children : List NodeId) : Graph :=
  { g with adjacency := Keyed.modify node (fun _ => children) g.adjacency }

/-- Adds an edge behind those that are there, and the ends that are missing. A node is not made its
    own child, and no child twice. -/
def addEdge (g : Graph) (source target : NodeId) : Graph × Bool :=
  if source = target then (g, false)
  else
    let g := ((g.ensureNode source).1.ensureNode target).1
    if g.hasEdge source target then (g, false)
    else (g.setChildren source (g.children source ++ [target]), true)

/-- Removes an edge and its label. -/
def removeEdge (g : Graph) (source target : NodeId) : Graph × Bool :=
  if g.hasEdge source target then
    let g := g.setChildren source ((g.children source).filter (· ≠ target))
    ({ g with metadata := Keyed.modify source (dropLabel target) g.metadata }, true)
  else (g, false)

/-- Puts a new child in the place of an old one, which just goes if the new one is there already. -/
def replaceIn (old new : NodeId) (children : List NodeId) : List NodeId :=
  if children.contains new then children.erase old
  else children.replace old new

/-- Puts a new child in the place of an old one. A node is not made its own child: its old one just
    goes. -/
def replaceChild (g : Graph) (parent old new : NodeId) : Graph × Bool :=
  if parent = new then g.removeEdge parent old
  else
    let g := (g.ensureNode new).1
    if g.hasEdge parent old then
      (g.setChildren parent (replaceIn old new (g.children parent)), true)
    else (g, false)

/-! ### Integrity -/

/-- Adjacency and metadata have the same nodes, every child is a node, and no node has a child twice
    or is its own child. -/
structure WellFormed (g : Graph) : Prop where
  nodup : g.nodes.Nodup
  sameNodes : ∀ node, g.contains node = (g.meta? node).isSome
  closed : ∀ node child, child ∈ g.children node → g.contains child
  noRepetition : ∀ node, (g.children node).Nodup
  noLoop : ∀ node, node ∉ g.children node

/-- The first child of a node that is no node. -/
def danglingChild? (g : Graph) (children : List NodeId) : Option NodeId :=
  children.find? fun child => !g.contains child

/-- What is wrong at a node of the adjacency. -/
def faultAt? (g : Graph) (phase : String) (node : NodeId) (children : List NodeId) :
    Option Error :=
  if (g.meta? node).isNone then some (.metadataMismatch phase node)
  else (g.danglingChild? children).map (.danglingReference phase node)

/-- The first node without metadata, missing child, or metadata without node. -/
def fault? (g : Graph) (phase : String) : Option Error :=
  match g.adjacency.findSome? fun (node, children) => g.faultAt? phase node children with
  | some e => some e
  | none =>
    (g.metadata.find? fun (node, _) => !g.contains node).map fun (node, _) =>
      .metadataMismatch phase node

/-- Fails if metadata or a child is missing; the error names the phase that left it so. -/
def checkIntegrity (g : Graph) (phase : String) : Except Error Unit :=
  match g.fault? phase with
  | some e => .error e
  | none => .ok ()

end Graph

end Cartograph
