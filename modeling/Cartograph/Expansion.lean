import Cartograph.Arrangement.Inversion
import Cartograph.Mention

/-!
# Splitting nodes into instances

A node that stands for several instances is replaced by *siblings*, numbered from one, each with
its own attributes. The edges of the node go to its siblings: the nodes at their other ends are
taken together by type in *families*, and each family is paired with the siblings (`pair`).

* A node that a sibling's attributes name, or that names a sibling, goes with that sibling.
* Of the others, a single one goes with every sibling, several with pairwise different instance
  numbers go with the siblings of these numbers, and all others go with the siblings in turn.

Then every node that is left in two containers neither of which is inside the other is split once
more, with one sibling for each container (`separate`); a node that has a number already stays in
one of them.
-/

namespace Cartograph.Expansion

open Arrangement Rules

/-- Whether an attribute names an identifier. -/
def names (attributes : Attributes) (id : NodeId) : Bool :=
  attributes.any fun (_, v) => v.texts.any fun t => Mention.namesId t id

/-- A node that is to be split. -/
structure Split where
  node : NodeId
  count : Nat
  /-- The attributes of the siblings, if they are known. -/
  instances : List Attributes
  /-- Containers that get a sibling each. -/
  containers : List NodeId

/-- The identifier of a sibling, by its place. -/
def Split.sibling (s : Split) (i : Nat) : NodeId := NodeId.withSuffix s.node (i + 1)

/-- The identifiers of the siblings. -/
def Split.siblings (s : Split) : List NodeId := (List.range s.count).map s.sibling

/-- The split that a node's metadata ask for: the number of its instances, or of the members of an
    attribute that is counted. A sibling then has just its own member. -/
def plan? (p : Providers) (node : NodeId) (m : NodeMeta) : Option Split :=
  if (NodeId.suffix? node).isSome then none
  else if 1 < m.cardinality then
    some ⟨node, m.cardinality, if m.instances.length = m.cardinality then m.instances else [], []⟩
  else (p.countedList? m.resourceType m.attributes).bind fun (key, items) =>
    if items.length < 2 then none
    else some ⟨node, items.length,
      items.map fun item => Keyed.insert key (.list [item]) m.attributes, []⟩

/-- A finding about a best guess. -/
def guess (node : NodeId) (message : String) : Diagnostic := ⟨.approximation, some node, message⟩

/-! ### Pairing -/

/-- A sibling, by its place, and the node at the other end of one of its edges. -/
abbrev Link := Nat × NodeId

/-- The siblings that name a node, else those that the node names. -/
def namedSiblings (g : Graph) (s : Split) (other : NodeId) : List Nat :=
  let naming := s.instances.zipIdx.filterMap fun (attributes, i) =>
    if names attributes other then some i else none
  if naming ≠ [] then naming
  else match g.meta? other with
    | none => []
    | some m => (List.range s.count).filter fun i =>
        names m.attributes (s.sibling i)

/-- The place of the sibling for an instance number. Places are words of 64 bits, so the one before
    the first is the last of all; those that are too high begin again with the first. -/
def placeOf (count number : Nat) : Nat :=
  (if number = 0 then 18446744073709551615 else number - 1) % count

/-- Pairs nodes with the siblings of their numbers. -/
def pairByNumber (s : Split) (others : List (NodeId × Nat)) : List Link × List Diagnostic :=
  (others.map fun (other, n) => (placeOf s.count n, other),
    (others.filter fun (_, n) => s.count < n).map fun (other, n) =>
      guess s.node ("no sibling with suffix " ++ toString n ++ " for '" ++ other
        ++ "', wrapped around"))

/-- Pairs nodes with the siblings in turn. -/
def pairInTurn (s : Split) (others : List NodeId) : List Link × List Diagnostic :=
  (others.zipIdx.map fun (other, j) => (j % s.count, other),
    if others.length = s.count then []
    else [guess s.node (toString s.count ++ " instances paired positionally with "
      ++ toString others.length ++ " related nodes")])

/-- Pairs nodes that name no sibling and that no sibling names. -/
def pairRest (s : Split) : List NodeId → List Link × List Diagnostic
  | [] => ([], [])
  | [other] => ((List.range s.count).map fun i => (i, other), [])
  | others =>
    let numbered := others.filterMap fun o => (NodeId.suffix? o).map fun n => (o, n)
    if numbered.length = others.length ∧ (numbered.map (·.2)).Nodup then pairByNumber s numbered
    else pairInTurn s others

/-- Pairs the nodes of a family with the siblings. -/
def pair (g : Graph) (s : Split) (family : List NodeId) : List Link × List Diagnostic :=
  let named := family.flatMap fun o => (namedSiblings g s o).map fun i => (i, o)
  let (links, found) := pairRest s (family.filter fun o => namedSiblings g s o = [])
  (named ++ links, found)

/-- Nodes by their type, sorted. -/
def families (g : Graph) (ends : List NodeId) : List (List NodeId) :=
  (Keyed.keySet (ends.map g.typeOf)).map fun ty =>
    Keyed.keySet (ends.filter fun n => g.typeOf n = ty)

/-- Pairs the nodes at the other ends of edges with the siblings. -/
def pairAll (g : Graph) (s : Split) (ends : List NodeId) : List Link × List Diagnostic :=
  let parts := (families g ends).map (pair g s)
  (parts.flatMap (·.1), parts.flatMap (·.2))

/-! ### Splitting -/

/-- The metadata of a sibling. -/
def siblingMeta (s : Split) (m : NodeMeta) (i : Nat) : NodeMeta :=
  { m with
    cardinality := 1
    instances := []
    edgeLabels := []
    instanceKeys := (m.instanceKeys[i]?).toList
    attributes := (s.instances[i]?).getD m.attributes }

/-- Sets the label of an edge. -/
def setLabel (g : Graph) (source target : NodeId) (label : Option String) : Graph :=
  match label with
  | some l => g.modifyMeta source fun m =>
    { m with edgeLabels := Keyed.insert target l m.edgeLabels }
  | none => g

/-- Adds the edge from a sibling to a child of the node. -/
def linkChild (s : Split) (m : NodeMeta) (g : Graph) (link : Link) : Graph :=
  let (i, child) := link
  setLabel (g.addEdge (s.sibling i) child).1 (s.sibling i) child
    (Keyed.find? child m.edgeLabels)

/-- Adds the edge from a parent of the node to a sibling. -/
def linkParent (s : Split) (g : Graph) (link : Link) : Graph :=
  let (i, parent) := link
  let g := (g.addEdge parent (s.sibling i)).1
  setLabel g parent (s.sibling i)
    ((g.meta? parent).bind fun m => Keyed.find? s.node m.edgeLabels)

/-- Replaces a node by its siblings. -/
def replaceNode (s : Split) (m : NodeMeta) (g : Graph) : Outcome :=
  let children := g.children s.node
  let parents := (g.parents s.node).filter (· ∉ s.containers)
  -- The siblings come first, at the end of the graph; the node goes when its edges are theirs.
  let g := eachSilent (fun g i => g.insertNode (s.sibling i) (siblingMeta s m i))
    (List.range s.count) g
  let (outgoing, found) := pairAll g s children
  let g := eachSilent (linkChild s m) outgoing g
  let (incoming, more) := pairAll g s parents
  -- Containers are not paired by name: each gets its own sibling.
  let placed := s.containers.zipIdx.map fun (c, i) => (i % s.count, c)
  let g := eachSilent (linkParent s) (placed ++ incoming) g
  ((g.removeNode s.node).1, found ++ more)

/-- Splits a node, unless the identifier of a sibling is taken. -/
def split (g : Graph) (s : Split) : Outcome :=
  match g.meta? s.node with
  | none => (g, [])
  | some m =>
    match s.siblings.find? g.contains with
    | some taken =>
      (g, [skipped (some s.node) ("cannot expand, '" ++ taken ++ "' already exists")])
    | none => replaceNode s m g

/-! ### Separating containers -/

/-- The containers of a node that hold no other container of it, sorted. -/
def innermostGroups (p : Providers) (g : Graph) (node : NodeId) : List NodeId :=
  let groups := groupParents p g node
  Keyed.keySet <| groups.filter fun c => !groups.any fun h => h ≠ c && (g.ancestors h).contains c

/-- Leaves a numbered node only in the container with its number, else in the first. -/
def keepOne (node : NodeId) (first : NodeId) (containers : List NodeId) (g : Graph) : Outcome :=
  let own := NodeId.suffix? node
  let keep := (containers.find? fun c => NodeId.suffix? c = own).getD first
  (removeParents (containers.filter (· ≠ keep)) node g,
    [guess node ("already numbered, kept only in '" ++ keep ++ "'")])

/-- Splits a node that is in several containers, none inside another. -/
def separate (p : Providers) (g : Graph) (node : NodeId) : Outcome :=
  if !g.contains node || p.isGroup (g.typeOf node) then (g, [])
  else match innermostGroups p g node with
    | first :: second :: rest =>
      let containers := first :: second :: rest
      if (NodeId.suffix? node).isSome then keepOne node first containers g
      else split g ⟨node, containers.length, [], containers⟩
    | _ => (g, [])

/-- All splits that metadata ask for. -/
def plannedSplits (p : Providers) (g : Graph) : List Split :=
  g.sortedNodes.filterMap fun node => (g.meta? node).bind (plan? p node)

/-- Splits every node with several instances, then every node in several containers. -/
def expand (p : Providers) (g : Graph) : Outcome :=
  let (g, found) := each split (plannedSplits p g) g
  let (g, more) := each (separate p) g.sortedNodes g
  (g, found ++ more)

end Cartograph.Expansion
