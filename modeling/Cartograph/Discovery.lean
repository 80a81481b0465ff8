import Cartograph.Graph
import Cartograph.Mention
import Cartograph.Resolution
import Cartograph.Rules.Providers

/-!
# Discovering edges

The graph of a resolution: a node for each resource, and an edge from each resource to every other
one that it refers to. References are found, in this order, among the planning tool's own
dependencies, the resources that have to be there before, the names in expressions, the
identifiers that resolved attributes mention, and the connections that attributes imply
(`targetsOf`).

An edge to a type with reverse arrows is turned around. An edge that would close a loop of two nodes
is left out, with a finding.
-/

namespace Cartograph.Discovery

open Rules

/-- The metadata of a resource's node. -/
def metaOf (p : Providers) (r : Resolution.Resource) : NodeMeta :=
  { NodeMeta.empty with
    resourceType := r.resourceType
    name := r.name
    module := r.module
    provider := NodeId.providerOf r.resourceType
    attributes := r.attributes
    raw := r.raw
    instances := r.instances
    instanceKeys := r.instanceKeys
    hidden := p.isHidden r.resourceType
    cardinality := max 1 r.cardinality
    variant := p.variant? r.resourceType r.attributes }

/-- All texts in attributes, each with the name of its attribute. -/
def textsOf (attributes : Attributes) : List (String × String) :=
  attributes.flatMap fun (key, v) => v.texts.map fun t => (key, t)

/-- The identifiers that attributes mention. -/
def mentionedIn (known : List NodeId) (attributes : Attributes) : List NodeId :=
  (textsOf attributes).flatMap fun (_, t) => Mention.mentions known t

/-- The resources among `candidates` that some texts mean: those whose names occur whole in one,
    else those whose names occur at all, else all. -/
def narrow (texts : List String) (candidates : List Resolution.Resource) :
    List Resolution.Resource :=
  let whole := candidates.filter fun r => texts.any fun t => Mention.occursWhole t r.name
  let partly := candidates.filter fun r => texts.any fun t => Text.isPart r.name t
  if !whole.isEmpty then whole else if !partly.isEmpty then partly else candidates

/-- The resources that the attributes of a resource imply a connection to. -/
def impliedBy (all : List Resolution.Resource) (r : Resolution.Resource)
    (rule : ImpliedConnection × Regex.Program) : List NodeId :=
  let (connection, program) := rule
  if connection.target = r.resourceType then []
  else
    let texts := (textsOf r.attributes).filterMap fun (key, t) =>
      if program.test key || program.test t then some t else none
    if texts.isEmpty then []
    else (narrow texts (all.filter fun c => c.resourceType = connection.target)).map (·.id)

/-- All that a resource refers to, in order. -/
def candidatesOf (p : Providers) (res : Resolution) (r : Resolution.Resource) : List NodeId :=
  let known := res.resources.map (·.id)
  (res.dependencies.filter fun d => d.source = r.id).map (·.target)
    ++ r.dependsOn ++ r.references
    ++ (r.attributes :: r.instances).flatMap (mentionedIn known)
    ++ p.implied.flatMap (impliedBy res.resources r)

/-- A list without members that are there before. -/
def firstOccurrences (ids : List NodeId) : List NodeId :=
  ids.foldl (fun done id => if id ∈ done then done else done ++ [id]) []

/-- The other resources that a resource refers to, each once. -/
def targetsOf (p : Providers) (res : Resolution) (r : Resolution.Resource) : List NodeId :=
  firstOccurrences <| (candidatesOf p res r).filter fun id =>
    id ≠ r.id ∧ id ∈ res.resources.map (·.id)

/-- An edge that a reference stands for. -/
def edgeFor (p : Providers) (g : Graph) (r target : NodeId) : NodeId × NodeId :=
  if p.isReverseArrow (g.typeOf target) then (target, r) else (r, target)

/-- Adds the edge of a reference, unless the edge the other way is there. -/
def connect (p : Providers) (r : NodeId) (s : Graph × List Diagnostic) (target : NodeId) :
    Graph × List Diagnostic :=
  let (g, found) := s
  let (a, b) := edgeFor p g r target
  -- Of two resources that refer to each other, the first one's edge stays.
  if g.hasEdge b a then
    (g, found ++ [⟨.skipped, some a,
      "dropped edge to '" ++ b ++ "', the reverse edge already exists"⟩])
  else ((g.addEdge a b).1, found)

/-- The nodes of a resolution without edges. -/
def nodesOf (p : Providers) (res : Resolution) (title : Option String) : Graph :=
  res.resources.foldl (fun g r => g.insertNode r.id (metaOf p r))
    { Graph.empty p.primary with title := title }

/-- The graph of a resolution, and the edges that were left out. -/
def build (p : Providers) (res : Resolution) (title : Option String) : Graph × List Diagnostic :=
  res.resources.foldl (fun s r => (targetsOf p res r).foldl (connect p r.id) s)
    (nodesOf p res title, [])

end Cartograph.Discovery
