import Cartograph.Arrangement.Step
import Cartograph.Rules.Context

/-!
# Callbacks

What no operation covers: node groups go into their clusters with a made-up node for their
workers, and load balancers are connected with target groups past their listeners.
-/

namespace Cartograph.Arrangement

open Rules

/-- The nodes of some types at edges to or from a node, sorted. -/
def neighboursOfType (g : Graph) (node : NodeId) (types : List String) : List NodeId :=
  Keyed.keySet ((g.children node ++ g.parents node).filter fun n => types.contains (g.typeOf n))

/-! ### Node groups -/

/-- The number of workers that a node group asks for, in a block or a list of blocks. -/
def desiredSize? (m : NodeMeta) : Option Nat := do
  let config ← Keyed.find? "scaling_config" m.attributes
  let block ← match config with
    | .list items => items.head?
    | v => some v
  let entries ← block.asMap?
  let n ← (← Keyed.find? "desired_size" entries).asInt?
  if 0 ≤ n then some n.toNat else none

/-- The identifier of a node group's workers. -/
def workersId (node : NodeId) (m : NodeMeta) : NodeId :=
  let name := match NodeId.suffix? node with
    | some n => m.name ++ "_" ++ toString n
    | none => m.name
  NodeId.qualified m.module "tv_aws_eks_workers" (NodeId.sanitize name)

/-- The metadata of a node group's workers. -/
def workersMeta (workers : NodeId) (m : NodeMeta) : NodeMeta :=
  let base := { NodeMeta.forSynthetic workers with
    provider := "aws", label := some "worker nodes" }
  match desiredSize? m with
  | some n =>
    { base with cardinality := max 1 n, attributes := [("desired_size", .int n)] }
  | none => base

/-- Puts a node group under a cluster. -/
def underCluster (node : NodeId) (g : Graph) (cluster : NodeId) : Graph :=
  ((g.removeEdge node cluster).1.addEdge cluster node).1

/-- Puts a node group under its clusters, and its workers under the node group. -/
def placeNodeGroup (g : Graph) (node : NodeId) : Outcome :=
  match g.meta? node with
  | none => (g, [])
  | some m =>
    let clusters := neighboursOfType g node ["aws_eks_cluster"]
    let found := if clusters = [] then
        [skipped (some node) "node group has no cluster to attach to"]
      else []
    let g := eachSilent (underCluster node) clusters g
    let workers := workersId node m
    (((g.insertNode workers (workersMeta workers m)).addEdge node workers).1, found)

/-! ### Listeners -/

/-- Connects the load balancers of a listener with its target groups and removes the listener. -/
def collapseListener (g : Graph) (node : NodeId) : Outcome :=
  if !g.contains node then (g, [])
  else
    let balancers := neighboursOfType g node ["aws_lb", "aws_alb"]
    let targets := neighboursOfType g node ["aws_lb_target_group", "aws_alb_target_group"]
    if balancers = [] then
      (g, [skipped (some node) "listener is not attached to a load balancer"])
    else
      let g := eachSilent (fun g b => addChildren b targets g) balancers g
      ((g.removeNode node).1, [])

/-- Runs a callback on the nodes that its handler is for. -/
def runCallback (c : Callback) (matched : List NodeId) (g : Graph) : Outcome :=
  match c with
  | .eksNodeGroups => each placeNodeGroup matched g
  | .lbListeners => each collapseListener matched g

end Cartograph.Arrangement
