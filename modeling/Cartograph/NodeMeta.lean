import Cartograph.NodeId
import Cartograph.Value

/-!
# Node metadata

What is known about a node beside its children: the resource it stands for, the attributes as
written and as resolved, the instances it will be split into, and how it is drawn.

Metadata is written as a JSON record and read back from one; what a record leaves out has a default.
-/

namespace Cartograph

/-- Everything about a node but its place in the graph. -/
structure NodeMeta where
  resourceType : String
  name : String
  /-- The path of the declaring module, empty for the root module. -/
  module : String
  provider : String
  /-- Resolved attributes. -/
  attributes : Attributes
  /-- Attributes as written, where that differs. -/
  raw : Attributes
  /-- The resolved attributes of each instance of a resource with several. -/
  instances : List Attributes
  /-- The keys of the instances, in their order. -/
  instanceKeys : List String
  /-- In the graph but not drawn. -/
  hidden : Bool
  cardinality : Nat
  /-- Made up rather than declared. -/
  synthetic : Bool
  variant : Option String
  label : Option String
  /-- Texts at the edges to children, by child. -/
  edgeLabels : List (String × String)
  deriving Inhabited

namespace NodeMeta

/-- Nothing known. -/
def empty : NodeMeta where
  resourceType := ""
  name := ""
  module := ""
  provider := ""
  attributes := []
  raw := []
  instances := []
  instanceKeys := []
  hidden := false
  cardinality := 1
  synthetic := false
  variant := none
  label := none
  edgeLabels := []

/-- What an identifier says about its node. -/
def forId (id : NodeId) : NodeMeta :=
  let p := NodeId.parts id
  { empty with
    resourceType := p.resourceType
    name := p.name
    module := p.module
    provider := NodeId.providerOf p.resourceType }

/-- The metadata of a node that is made up: a container or placeholder. -/
def forSynthetic (id : NodeId) : NodeMeta := { forId id with synthetic := true }

/-- The type of a node: what its metadata says, else what its identifier says. -/
def typeOf (id : NodeId) (found : Option NodeMeta) : String :=
  match found with
  | some m => if m.resourceType = "" then NodeId.resourceType id else m.resourceType
  | none => NodeId.resourceType id

/-! ### Documents -/

/-- Attributes as a mapping. -/
def attributesDocument (as : Attributes) : Document := (Value.map as).toDocument

/-- A mapping of values. -/
def attributes? (d : Document) : Option Attributes :=
  (d.entriesOf? Value.ofDocument?).map Keyed.sorted

/-- A mapping of texts. -/
def labels? (d : Document) : Option (List (String × String)) :=
  (d.entriesOf? Document.asText?).map Keyed.sorted

/-- A field that is left out if it says nothing. -/
def optionalField (skip : Bool) (name : String) (d : Document) : List (String × Document) :=
  if skip then [] else [(name, d)]

/-- The record of metadata. -/
def toDocument (m : NodeMeta) : Document :=
  .object <|
    [("resource_type", .text m.resourceType), ("name", .text m.name)]
    ++ optionalField (m.module = "") "module" (.text m.module)
    ++ [("provider", .text m.provider), ("attributes", attributesDocument m.attributes)]
    ++ optionalField m.raw.isEmpty "raw" (attributesDocument m.raw)
    ++ optionalField m.instances.isEmpty "instances" (.list (m.instances.map attributesDocument))
    ++ optionalField m.instanceKeys.isEmpty "instance_keys" (.list (m.instanceKeys.map .text))
    ++ [("hidden", .bool m.hidden), ("cardinality", .int m.cardinality),
      ("synthetic", .bool m.synthetic)]
    ++ (m.variant.map fun v => ("variant", .text v)).toList
    ++ (m.label.map fun l => ("label", .text l)).toList
    ++ optionalField m.edgeLabels.isEmpty "edge_labels"
      (.object (m.edgeLabels.map fun (k, v) => (k, .text v)))

/-- The names of the fields in order. -/
def fieldNames : List String :=
  ["resource_type", "name", "module", "provider", "attributes", "raw", "instances",
    "instance_keys", "hidden", "cardinality", "synthetic", "variant", "label", "edge_labels"]

/-- The metadata of a record; only type and name have no default. -/
def ofDocument? (d : Document) : Option NodeMeta := do
  let r ← d.positionalRecord? fieldNames
  pure {
    resourceType := ← r.required? "resource_type" Document.asText?
    name := ← r.required? "name" Document.asText?
    module := ← r.withDefault? "module" Document.asText? ""
    provider := ← r.withDefault? "provider" Document.asText? ""
    attributes := ← r.withDefault? "attributes" attributes? []
    raw := ← r.withDefault? "raw" attributes? []
    instances := ← r.withDefault? "instances" (Document.listOf? attributes?) []
    instanceKeys := ← r.withDefault? "instance_keys" (Document.listOf? Document.asText?) []
    hidden := ← r.withDefault? "hidden" Document.asBool? false
    cardinality := ← r.withDefault? "cardinality" Document.asNat? 1
    synthetic := ← r.withDefault? "synthetic" Document.asBool? false
    variant := ← r.optional? "variant" Document.asText?
    label := ← r.optional? "label" Document.asText?
    edgeLabels := ← r.withDefault? "edge_labels" labels? [] }

end NodeMeta

end Cartograph
