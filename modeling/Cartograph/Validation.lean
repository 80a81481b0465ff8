import Cartograph.Arrangement.Placement
import Cartograph.Containment

/-!
# Validating a graph

The last step before a graph is drawn. A graph in which containers that are not nested share a
child is refused. Otherwise nodes without edges go, unless they are containers or are to be kept,
and a container without children gets an invisible placeholder.
-/

namespace Cartograph.Validation

open Arrangement Rules

/-- What tidying changed. -/
structure Report where
  removed : List NodeId
  placeholders : List NodeId
  deriving Repr, DecidableEq

/-- The type of placeholders. -/
def placeholderType : String := "tv_placeholder"

/-- The nodes without edges that are no containers, sorted. -/
def standalone (p : Providers) (g : Graph) : List NodeId :=
  g.sortedNodes.filter fun n =>
    (g.children n).isEmpty && (g.parents n).isEmpty && !p.isGroup (g.typeOf n)

/-- The identifier of a container's placeholder. -/
def placeholderFor (node : NodeId) : NodeId :=
  placeholderType ++ "." ++ NodeId.sanitize node

/-- Gives a container its placeholder. -/
def addPlaceholder (g : Graph) (node : NodeId) : Graph :=
  let id := placeholderFor node
  ((g.insertNode id { madeUpMeta g id with hidden := true }).addEdge node id).1

/-- Gives a container without children its placeholder, and says which. -/
def fill (p : Providers) (s : Graph × List NodeId) (node : NodeId) : Graph × List NodeId :=
  let (g, made) := s
  if (g.children node).isEmpty && p.isGroup (g.typeOf node) then
    (addPlaceholder g node, made ++ [placeholderFor node])
  else s

/-- Gives every container without children a placeholder. -/
def fillAll (p : Providers) (g : Graph) : Graph × List NodeId :=
  g.sortedNodes.foldl (fill p) (g, [])

/-- Removes some nodes. -/
def removeAll (nodes : List NodeId) (g : Graph) : Graph :=
  eachSilent (fun g n => (g.removeNode n).1) nodes g

/-- Checks a graph and tidies it. -/
def validate (keepStandalone : Bool) (p : Providers) (g : Graph) :
    Except Error (Graph × Report) := do
  Containment.checkShared p g
  -- Placeholders come after the removals, which never empty a container.
  let removed := if keepStandalone then [] else standalone p g
  let (g, placeholders) := fillAll p (removeAll removed g)
  g.checkIntegrity "validate"
  pure (g, ⟨removed, placeholders⟩)

end Cartograph.Validation
