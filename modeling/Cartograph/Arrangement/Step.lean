import Cartograph.Diagnostic
import Cartograph.Graph

/-!
# Steps of an arrangement

A step changes a graph and may find something to report. Steps for the members of a list are taken
one after the other (`each`), each on the graph that the one before it left, and their findings
are collected in order.
-/

namespace Cartograph.Arrangement

/-- A graph after a step, and what the step found. -/
abbrev Outcome := Graph × List Diagnostic

/-- Takes a step for each member of a list. -/
def each {α : Type} (step : Graph → α → Outcome) : List α → Graph → Outcome
  | [], g => (g, [])
  | a :: rest, g =>
    let (g, found) := step g a
    let (g, more) := each step rest g
    (g, found ++ more)

/-- Takes a step for each member of a list where there is nothing to report. -/
def eachSilent {α : Type} (step : Graph → α → Graph) (members : List α) (g : Graph) : Graph :=
  members.foldl step g

/-- Adds an edge from a node to each of several. -/
def addChildren (source : NodeId) (targets : List NodeId) (g : Graph) : Graph :=
  eachSilent (fun g t => (g.addEdge source t).1) targets g

/-- Removes the edges from each of several nodes to one. -/
def removeParents (sources : List NodeId) (target : NodeId) (g : Graph) : Graph :=
  eachSilent (fun g s => (g.removeEdge s target).1) sources g

/-- There is nothing to act on. -/
def skipped (node : Option NodeId) (message : String) : Diagnostic := ⟨.skipped, node, message⟩

end Cartograph.Arrangement
