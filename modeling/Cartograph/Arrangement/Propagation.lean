import Cartograph.Arrangement.Step
import Cartograph.Operation

/-!
# Spreading values along edges

The value of an attribute goes from a node to its parents or children, or from all children, put
together, to the node; one step or any number of steps. The name `cardinality` stands for the
number of instances. How a value meets one that is there is said by an `Aggregation`; where two
values cannot be put together the one that is there stays.
-/

namespace Cartograph.Arrangement

/-- The name that stands for the number of instances. -/
def cardinalityKey : String := "cardinality"

/-- An attribute of a node, or the number of its instances. -/
def readKey (g : Graph) (node : NodeId) (key : String) : Option Value :=
  (g.meta? node).bind fun m =>
    if key = cardinalityKey then some (.int (Decimal.ofSize m.cardinality))
    else (Keyed.find? key m.attributes).filter fun v => !v.isNull

/-- Sets an attribute of a node, or the number of its instances if the value is one. -/
def writeKey (node : NodeId) (key : String) (v : Value) (g : Graph) : Graph :=
  g.modifyMeta node fun m =>
    if key = cardinalityKey then
      match v.asInt? with
      | some n => if 0 ≤ n then { m with cardinality := max 1 n.toNat } else m
      | none => m
    else { m with attributes := Keyed.insert key v m.attributes }

/-- Puts two numbers together, as integers if both are. -/
def numeric (ofInts : Int → Int → Int) (ofFloats : Float → Float → Float) (a b : Value) :
    Option Value :=
  match a, b with
  | .int x, .int y => some (.int (ofInts x y))
  | a, b => do
    let x ← a.asFloat?
    let y ← b.asFloat?
    pure (.float (ofFloats x y))

/-- A value that comes to one that is there; nothing if that one stays. -/
def combine (aggregation : Aggregation) (existing : Option Value) (incoming : Value) :
    Option Value :=
  match existing with
  | none => some incoming
  | some v =>
    match aggregation with
    | .replace => some incoming
    | .keepExisting => none
    | .max => numeric max Decimal.greater v incoming
    | .min => numeric min Decimal.smaller v incoming
    | .sum => numeric (fun a b => Decimal.clamp (a + b)) (· + ·) v incoming

/-- The nodes one step away, or any number of steps. -/
def around (g : Graph) (node : NodeId) (up transitive : Bool) : List NodeId :=
  let next := if up then g.parents else g.children
  if transitive then reach next (g.nodes.erase node) (next node) else next node

/-- Brings a value to a node. -/
def bring (key : String) (aggregation : Aggregation) (v : Value) (g : Graph) (target : NodeId) :
    Graph :=
  match combine aggregation (readKey g target key) v with
  | some w => writeKey target key w g
  | none => g

/-- Brings the value of a node to those around it. -/
def spread (key : String) (up : Bool) (aggregation : Aggregation) (transitive : Bool) (g : Graph)
    (node : NodeId) : Graph :=
  match readKey g node key with
  | none => g
  | some v => eachSilent (bring key aggregation v) (around g node up transitive) g

/-- The values of some nodes put together. -/
def aggregate (g : Graph) (key : String) (aggregation : Aggregation) (nodes : List NodeId) :
    Option Value :=
  nodes.foldl (fun sum node =>
    match readKey g node key with
    | none => sum
    | some v => (combine aggregation sum v).or sum) none

/-- Brings the values of a node's children, put together, to the node. They replace its own, unless
    that is to be kept. -/
def gather (key : String) (aggregation : Aggregation) (transitive : Bool) (g : Graph)
    (node : NodeId) : Graph :=
  match aggregate g key aggregation (around g node false transitive) with
  | none => g
  | some v =>
    if aggregation = .keepExisting ∧ (readKey g node key).isSome then g
    else writeKey node key v g

/-- Spreads the values of an attribute from or to all nodes that a pattern matches. -/
def propagate (pattern : Pattern) (key : String) (direction : Direction)
    (aggregation : Aggregation) (transitive : Bool) (g : Graph) : Graph :=
  let step := match direction with
    | .up => spread key true aggregation transitive
    | .down => spread key false aggregation transitive
    | .fromChildren => gather key aggregation transitive
  eachSilent step (g.nodesMatching pattern) g

end Cartograph.Arrangement
