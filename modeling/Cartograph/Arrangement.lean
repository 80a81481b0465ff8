import Cartograph.Arrangement.Callbacks
import Cartograph.Arrangement.Consolidation
import Cartograph.Arrangement.Insertion
import Cartograph.Arrangement.Placement
import Cartograph.Arrangement.Propagation

/-!
# Arranging a graph

What operations and handlers of rule tables do to a graph. An operation acts on the nodes that its
own pattern matches, else on those that its handler is for. A handler's callback runs before or
after its operations, as the table says.
-/

namespace Cartograph

open Arrangement Rules

/-- What an operation of a handler for `subject` does. -/
def Operation.apply (p : Providers) (subject : Pattern) (g : Graph) : Operation → Outcome
  | .insertIntermediate parent child generator =>
    Arrangement.insertIntermediate parent child generator g
  | .reverseRelation resource => (Arrangement.reverseRelation p (resource.getD subject) g, [])
  | .consolidate resource target => (Arrangement.consolidate resource target g, [])
  | .propagate key direction aggregation transitive resource =>
    (Arrangement.propagate (resource.getD subject) key direction aggregation transitive g, [])
  | .matchBySuffix first second => (Arrangement.matchBySuffix first second g, [])
  | .move resource target => Arrangement.move p (resource.getD subject) target g
  | .relink source target action => Arrangement.relink source target action g
  | .delete resource keepEdges => (Arrangement.delete (resource.getD subject) keepEdges g, [])
  | .group container members => (Arrangement.group p container members g, [])

namespace Rules.Handler

/-- Runs the callback of a handler on the nodes that it is for. -/
def runCallback (h : Handler) (g : Graph) : Outcome :=
  match h.callback with
  | some c => Arrangement.runCallback c (g.nodesMatching h.pattern) g
  | none => (g, [])

/-- Runs the operations of a handler in order. -/
def runOperations (h : Handler) (p : Providers) (g : Graph) : Outcome :=
  each (fun g o => Operation.apply p h.pattern g o) h.operations g

/-- Runs a handler. -/
def run (h : Handler) (p : Providers) (g : Graph) : Outcome :=
  match h.order with
  | .before =>
    let (g, found) := h.runCallback g
    let (g, more) := h.runOperations p g
    (g, found ++ more)
  | .after =>
    let (g, found) := h.runOperations p g
    let (g, more) := h.runCallback g
    (g, found ++ more)

end Rules.Handler

end Cartograph
