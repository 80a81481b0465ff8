import Cartograph.Annotation
import Cartograph.Arrangement
import Cartograph.Discovery
import Cartograph.Expansion
import Cartograph.Snapshot
import Cartograph.Validation

/-!
# Runs

A run makes a graph of a plan: the plan is resolved, the providers are detected, edges are
discovered, nodes are split into instances, the phases of the rule tables arrange the graph, and
then it is validated and annotated (`Pipeline.run`). After each stage nothing may be missing in
the graph.

A snapshot taken after the phases can be taken up again: it is validated and annotated
(`Pipeline.replay`), or just checked (`Pipeline.check`). The providers are then detected from the
types in the graph.
-/

namespace Cartograph

open Arrangement Rules

/-- How runs are to be made. -/
structure Pipeline where
  /-- The number of passes for resolving a plan. -/
  budget : Nat
  /-- Rule tables beside those that are built in. -/
  tables : List Table
  /-- Whether nodes without edges are kept. -/
  keepStandalone : Bool
  annotations : Option Annotations
  title : Option String
  /-- Whether a stop has been asked for when a phase is about to begin. -/
  stopped : String → Bool
  /-- What marks a snapshot, if one is to be taken. -/
  stamp : Option Stamp

/-- What a run gives. -/
structure Pipeline.Output where
  graph : Graph
  diagnostics : List Diagnostic
  /-- The graph as it stood after the phases. -/
  snapshot : Option Snapshot

namespace Pipeline

/-- Runs that use nothing but what is built in. -/
def standard : Pipeline where
  budget := defaultBudget
  tables := []
  keepStandalone := false
  annotations := none
  title := none
  stopped _ := false
  stamp := none

/-- Fails if a stop has been asked for. -/
def checkStop (c : Pipeline) (phase : String) : Except Error Unit :=
  if c.stopped phase then .error (.cancelled phase) else .ok ()

/-! ### The phases of rule tables -/

/-- Runs the handlers of a phase. -/
def runPhase (c : Pipeline) (p : Providers) (phase : Phase) (g : Graph) :
    Except Error Outcome := do
  c.checkStop phase.name
  let (g, found) := each (fun g h => h.run p g) phase.handlers g
  g.checkIntegrity phase.name
  pure (g, found)

/-- Runs phases one after the other. -/
def runPhases (c : Pipeline) (p : Providers) : List Phase → Graph → Except Error Outcome
  | [], g => pure (g, [])
  | phase :: rest, g => do
    let (g, found) ← c.runPhase p phase g
    let (g, more) ← runPhases c p rest g
    pure (g, found ++ more)

/-- Adds an edge from a made-up node. -/
def addAutoEdge (link : AutoLink) (g : Graph) (target : NodeId) : Graph :=
  Expansion.setLabel (g.addEdge link.source target).1 link.source target link.label

/-- Adds a made-up node with its edges, if there is something for them to lead to. -/
def addAutoLink (g : Graph) (link : AutoLink) : Graph :=
  match g.nodesMatching link.target with
  | [] => g
  | targets =>
    let g := if g.contains link.source then g
      else g.insertNode link.source (madeUpMeta g link.source)
    eachSilent (addAutoEdge link) targets g

/-- Arranges a graph by the rule tables. -/
def arrange (c : Pipeline) (p : Providers) (g : Graph) : Except Error Outcome := do
  let (g, found) ← c.runPhases p (p.contexts.flatMap Context.phases) g
  -- Links may bring a node into a further container, so pruning comes last.
  let g := Containment.prune p (eachSilent addAutoLink p.autoLinks g)
  g.checkIntegrity Stage.transform.name
  pure (g, found)

/-! ### Stages -/

/-- Applies the annotations of a run. -/
def annotate (c : Pipeline) (p : Providers) (g : Graph) : Except Error Outcome :=
  match c.annotations with
  | none => pure (g, [])
  | some a => do
    let (g, found) := a.apply p g
    g.checkIntegrity Stage.annotate.name
    pure (g, found)

/-- Validates and annotates a graph. -/
def finish (c : Pipeline) (p : Providers) (g : Graph) : Except Error Outcome := do
  c.checkStop Stage.validate.name
  let (g, _) ← Validation.validate c.keepStandalone p g
  c.checkStop Stage.annotate.name
  c.annotate p g

/-- The graph of a plan before it is validated, with the providers and all findings so far. -/
def prepare (c : Pipeline) (plan : Plan) :
    Except Error (Providers × Graph × List Diagnostic) := do
  c.checkStop Stage.interpret.name
  let r := plan.resolve c.budget
  let (p, detected) ← Providers.detect (r.resources.map (·.resourceType)) c.tables
  c.checkStop Stage.build.name
  let (g, built) := Discovery.build p r c.title
  g.checkIntegrity Stage.build.name
  c.checkStop Stage.expand.name
  let (g, expanded) := Expansion.expand p g
  g.checkIntegrity Stage.expand.name
  let (g, arranged) ← c.arrange p g
  pure (p, g, r.diagnostics ++ detected ++ built ++ expanded ++ arranged)

/-- Runs all stages. -/
def run (c : Pipeline) (plan : Plan) : Except Error Output := do
  let (p, g, found) ← c.prepare plan
  let (finished, more) ← c.finish p g
  -- The snapshot is of the graph before it is validated.
  pure ⟨finished, found ++ more, c.stamp.map (Snapshot.capture g .transform)⟩

/-- The providers of a graph that is taken up again. -/
def detectAgain (c : Pipeline) (g : Graph) : Except Error (Providers × List Diagnostic) :=
  Providers.detect ((g.metadata.filter fun (_, m) => !m.synthetic).map fun (_, m) =>
    m.resourceType) c.tables

/-- Takes up a snapshot: validates and annotates its graph. -/
def replay (c : Pipeline) (s : Snapshot) : Except Error Output := do
  let g ← s.restore
  let (p, detected) ← c.detectAgain g
  let (g, found) ← c.finish p g
  pure ⟨g, detected ++ found, none⟩

/-- Checks whether a snapshot's graph can be drawn, and changes nothing. -/
def check (c : Pipeline) (s : Snapshot) : Except Error Graph := do
  let g ← s.restore
  let (p, _) ← c.detectAgain g
  Containment.checkShared p g
  pure g

/-- Runs all stages for several plans. -/
def runMany (c : Pipeline) (plans : List Plan) : List (Except Error Output) := plans.map c.run

end Pipeline

end Cartograph
