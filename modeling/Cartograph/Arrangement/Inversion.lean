import Cartograph.Arrangement.Step
import Cartograph.Rules.Providers

/-!
# Turning relations around

A protective resource is referred to by what it protects; drawn, it is a container around it. With
one referring node it takes the node's place in the node's containers and holds it. With several,
each gets a copy of its own (`copyNumbers` says under which number), and the first copy keeps the
children.

Containers and hidden nodes do not count as referring.
-/

namespace Cartograph.Arrangement

open Rules

/-- The containers that hold a node. -/
def groupParents (p : Providers) (g : Graph) (node : NodeId) : List NodeId :=
  (g.parents node).filter fun q => p.isGroup (g.typeOf q)

/-- The nodes that refer to a node. -/
def referring (p : Providers) (g : Graph) (node : NodeId) : List NodeId :=
  (g.parents node).filter fun q =>
    !p.isGroup (g.typeOf q) && !((g.meta? q).map (·.hidden)).getD false

/-- The instance numbers of nodes, of several equal ones only the first. -/
def keptNumbers (taken : List Nat) : List NodeId → List (Option Nat)
  | [] => []
  | q :: rest =>
    match NodeId.suffix? q with
    | some n => if n ∈ taken then none :: keptNumbers taken rest
        else some n :: keptNumbers (n :: taken) rest
    | none => none :: keptNumbers taken rest

/-- The least number from `n` that is not taken. -/
def freeNumber (taken : List Nat) (n : Nat) : Nat :=
  ((List.range' n (taken.length + 1)).find? (· ∉ taken)).getD n

/-- Gives a free number, from `next` on, to each place that has none. -/
def fillNumbers (taken : List Nat) (next : Nat) : List (Option Nat) → List Nat
  | [] => []
  | some n :: rest => n :: fillNumbers taken next rest
  | none :: rest =>
    let n := freeNumber taken next
    n :: fillNumbers (n :: taken) n rest

/-- A number for the copy of each referring node: its own if it has one that none before it has,
    else the least that is free. -/
def copyNumbers (nodes : List NodeId) : List Nat :=
  let kept := keptNumbers [] nodes
  fillNumbers (kept.filterMap id) 1 kept

/-- Turns the relation of a node with its only referring node around. -/
def invertSingle (p : Providers) (g : Graph) (node q : NodeId) : Graph :=
  let own := groupParents p g node
  let g := (g.removeEdge q node).1
  let outer := (groupParents p g q).filter (· ≠ node)
  -- The node leaves its own containers only if it gets a place in those of the other.
  let g := if outer = [] then g
    else eachSilent (fun g c => (g.replaceChild c q node).1) outer (removeParents own node g)
  let g := (g.addEdge node q).1
  match NodeId.suffix? q, NodeId.suffix? node with
  | some n, none => (g.renameNode node (NodeId.withSuffix node n)).1
  | _, _ => g

/-- The first number from `n` on under which an instance of a node is missing. Numbers have 64 bits,
    and behind the greatest one comes zero. -/
def freeInstance (g : Graph) (base : NodeId) (n : Nat) : Nat :=
  let numbers := (List.range' n (g.size + 1)).map (· % Nat.pow 2 64)
  (numbers.find? fun i => !g.contains (NodeId.withSuffix base i)).getD n

/-- What is needed to make a copy of a node that is gone. -/
structure Template where
  node : NodeId
  found : NodeMeta
  /-- The containers that held it. -/
  groups : List NodeId
  children : List NodeId

/-- Puts a copy of a node around a referring one. The first copy keeps the children. -/
def addCopy (p : Providers) (t : Template) (g : Graph) (member : (NodeId × Nat) × Nat) : Graph :=
  let ((q, n), index) := member
  let base := NodeId.base t.node
  let copy := NodeId.withSuffix base (freeInstance g base n)
  let g := g.insertNode copy { t.found with cardinality := 1, instances := [] }
  let g := if index = 0 then addChildren copy t.children g else g
  let g := (g.addEdge copy q).1
  -- Copies made before are no containers to stand in.
  let outer := (groupParents p g q).filter fun c => c ≠ t.node ∧ NodeId.base c ≠ base
  if outer = [] then eachSilent (fun g c => (g.addEdge c copy).1) t.groups g
  else eachSilent (fun g c => (g.replaceChild c q copy).1) outer g

/-- Turns the relations of a node with its referring nodes around. -/
def invert (p : Providers) (g : Graph) (node : NodeId) : Graph :=
  if !g.contains node then g
  else match referring p g node with
    | [] => g
    | [q] => invertSingle p g node q
    | several =>
      let sorted := Keyed.keySet several
      -- The node is gone before its copies get their names, so one of them may take its own.
      let t : Template := ⟨node, (g.meta? node).getD (NodeMeta.forId node),
        groupParents p g node, g.children node⟩
      eachSilent (addCopy p t) ((sorted.zip (copyNumbers sorted)).zipIdx) (g.removeNode node).1

/-- Turns relations around for all nodes that a pattern matches. -/
def reverseRelation (p : Providers) (pattern : Pattern) (g : Graph) : Graph :=
  eachSilent (invert p) (g.nodesMatching pattern) g

end Cartograph.Arrangement
