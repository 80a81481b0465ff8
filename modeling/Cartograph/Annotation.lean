import Cartograph.Annotation.Notes
import Cartograph.Containment

/-!
# Applying annotations

Annotations come after all rules, so what a user says wins. Their sections apply in a fixed order:
the title, nodes to add, edges to add, edges to remove, nodes to remove, and updates. A pattern
that matches nothing is reported; where it names a single node, that node is made.

Annotations come after validation too, so an edge that leaves a child in two containers that are not
nested is reported rather than refused.
-/

namespace Cartograph.Annotations

open Arrangement Rules

/-- The metadata of a node that only annotations name. -/
def namedMeta (g : Graph) (node : NodeId) : NodeMeta :=
  let m := NodeMeta.forSynthetic node
  if m.provider = "" then { m with provider := g.provider } else m

/-- Sets several attributes of a node. -/
def setAttributes (node : NodeId) (attributes : Attributes) (g : Graph) : Graph :=
  g.modifyMeta node fun m => { m with attributes := Keyed.insertAll m.attributes attributes }

/-- Adds a node, or attributes to one that is there. -/
def addNode (g : Graph) (entry : NodeId × Attributes) : Graph :=
  let (node, attributes) := entry
  setAttributes node attributes
    (if g.contains node then g else g.insertNode node (namedMeta g node))

/-- The nodes that a pattern matches; a node that it names is made if it is missing. -/
def resolve (g : Graph) (p : Pattern) : Graph × List NodeId :=
  match g.nodesMatching p with
  | [] => if p.isIdentifier then (g.insertNode p.text (namedMeta g p.text), [p.text]) else (g, [])
  | nodes => (g, nodes)

/-- A pattern of a section matches nothing. -/
def unmatched (section_ : String) (p : Pattern) : Diagnostic :=
  skipped none (section_ ++ " pattern '" ++ p.text ++ "' matched nothing")

/-- A graph, and the children that have got a container. -/
abbrev Connected := Graph × List NodeId

/-- Adds an edge with a label, and notes the child if the parent is a container. -/
def connectPair (p : Providers) (label : Option String) (s : Connected)
    (edge : NodeId × NodeId) : Connected :=
  let (g, contained) := s
  let (source, target) := edge
  let g := (g.addEdge source target).1
  let g := match label with
    | some l => g.modifyMeta source fun m =>
      { m with edgeLabels := Keyed.insert target l m.edgeLabels }
    | none => g
  (g, if p.isGroup (g.typeOf source) then contained ++ [target] else contained)

/-- Adds edges from some nodes to those that a pattern matches. -/
def connectLink (p : Providers) (sources : List NodeId) (s : Connected)
    (link : Pattern × Option String) : Connected :=
  let (pattern, label) := link
  let (g, targets) := resolve s.1 pattern
  let pairs := sources.flatMap fun a => (targets.filter (· ≠ a)).map fun b => (a, b)
  pairs.foldl (connectPair p label) (g, s.2)

/-- Adds the edges of an entry. -/
def connectEntry (p : Providers) (s : Connected × List Diagnostic) (entry : Pattern × Links) :
    Connected × List Diagnostic :=
  let ((g, contained), found) := s
  let (g, sources) := resolve g entry.1
  if sources = [] then ((g, contained), found ++ [unmatched "connect" entry.1])
  else (entry.2.foldl (connectLink p sources) (g, contained), found)

/-- Removes the edges from a node to children that patterns match. -/
def disconnectNode (targets : List Pattern) (g : Graph) (source : NodeId) : Graph :=
  eachSilent (fun g c => (g.removeEdge source c).1)
    ((g.children source).filter fun c => targets.any fun t => t.matchesNode c (g.meta? c)) g

/-- What is to be said about a pattern that matches nothing. -/
def unmatchedIn (section_ : String) (p : Pattern) (nodes : List NodeId) : List Diagnostic :=
  if nodes = [] then [unmatched section_ p] else []

/-- Removes the edges of an entry. -/
def disconnectEntry (g : Graph) (entry : Pattern × List Pattern) : Outcome :=
  let sources := g.nodesMatching entry.1
  (eachSilent (disconnectNode entry.2) sources g, unmatchedIn "disconnect" entry.1 sources)

/-- Removes the nodes that a pattern matches. -/
def removeEntry (g : Graph) (p : Pattern) : Outcome :=
  let nodes := g.nodesMatching p
  (eachSilent (fun g n => (g.removeNode n).1) nodes g, unmatchedIn "remove" p nodes)

/-- Sets the labels of edges to the children that a pattern names. -/
def setEdgeLabels (children : List NodeId) (m : NodeMeta) (link : Pattern × Option String) :
    NodeMeta :=
  match link.2 with
  | none => m
  | some l =>
    let named := children.filter fun c => link.1.matchesNode c none
    { m with edgeLabels := Keyed.insertAll m.edgeLabels (named.map fun c => (c, l)) }

/-- Updates a node. -/
def updateNode (u : NodeUpdate) (g : Graph) (node : NodeId) : Graph :=
  let children := g.children node
  g.modifyMeta node fun m =>
    u.edgeLabels.foldl (setEdgeLabels children)
      { m with
        label := u.label.or m.label
        attributes := Keyed.insertAll m.attributes u.attributes }

/-- Updates the nodes of an entry. -/
def updateEntry (g : Graph) (u : NodeUpdate) : Outcome :=
  let nodes := g.nodesMatching u.pattern
  (eachSilent (updateNode u) nodes g, unmatchedIn "update" u.pattern nodes)

/-- The finding about a child in two containers that are not nested. -/
def sharedFinding? (p : Providers) (g : Graph) (child : NodeId) : Option Diagnostic :=
  (Containment.unrelated? p g (g.parents child)).map fun (a, b) =>
    ⟨.sharedChild, some child, "connected into both " ++ a ++ " and " ++ b⟩

/-- Applies annotations to a graph. -/
def apply (a : Annotations) (p : Providers) (g : Graph) : Outcome :=
  let g := { g with title := a.title.or g.title }
  let g := eachSilent addNode a.add g
  let ((g, contained), connecting) := a.connect.foldl (connectEntry p) ((g, []), [])
  let (g, disconnecting) := each disconnectEntry a.disconnect g
  let (g, removing) := each removeEntry a.remove g
  let (g, updating) := each updateEntry a.update g
  -- Only children that still are there count, with the containers that they are in at the end.
  let shared := ((Keyed.keySet contained).filter g.contains).filterMap (sharedFinding? p g)
  (g, connecting ++ disconnecting ++ removing ++ updating ++ shared)

end Cartograph.Annotations
