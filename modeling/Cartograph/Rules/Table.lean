import Cartograph.Operation
import Cartograph.Yaml.Reader

/-!
# Rule tables

What is known about the resource types of one provider: which are drawn as containers, which
references point backwards, what is hidden, what implies a connection, and the phases of handlers
that arrange a graph. A table is read from YAML; only the provider's name has no default.

`Table.merge` puts a second table for the same provider over a first: its lists come behind the
first one's, and phases of one name are joined.
-/

namespace Cartograph.Rules

/-- A keyword, as a regular expression, that implies a connection to a resource type. -/
structure ImpliedConnection where
  keyword : String
  target : String
  deriving Repr, DecidableEq

/-- How an attribute selects a variant of a resource type. -/
structure VariantRule where
  resourceType : String
  key : String
  /-- Variants by the attribute's value, sorted. -/
  values : List (String × String)
  default : Option String
  deriving Repr, DecidableEq

/-- An attribute whose members are counted as instances. -/
structure CardinalityRule where
  resourceType : String
  key : String
  deriving Repr, DecidableEq

/-- Resources that are merged into one node. -/
structure ConsolidationRule where
  resource : Pattern
  target : NodeId
  deriving Repr, DecidableEq

/-- Resources that are put into a container for shared services. -/
structure SharedServices where
  container : NodeId
  patterns : List Pattern
  deriving Repr, DecidableEq

/-- A made-up node with edges to all nodes of a kind, if there are any. -/
structure AutoLink where
  source : NodeId
  target : Pattern
  label : Option String
  deriving Repr, DecidableEq

/-- A phase whose handlers come from a section of the table. -/
inductive BuiltinPhase
  | consolidation
  | protective
  | sharedServices
  deriving Repr, DecidableEq

/-- When a handler's callback runs. -/
inductive CallbackOrder
  | before
  | after
  deriving Repr, DecidableEq

/-- What is done to the nodes that a pattern matches. -/
structure HandlerConfig where
  description : String
  operations : List Operation
  /-- The name of a callback. -/
  callback : Option String
  order : CallbackOrder
  deriving Repr, DecidableEq

/-- A named step of arranging a graph. -/
structure PhaseConfig where
  name : String
  builtin : Option BuiltinPhase
  /-- Handlers by pattern, in order. -/
  handlers : List (String × HandlerConfig)
  deriving Repr, DecidableEq

/-- What is known about one provider's resource types. -/
structure Table where
  provider : String
  /-- The beginnings of the resource types that the table is for. -/
  starts : List String
  groupTypes : List Pattern
  /-- Types that become the parent of what refers to them. -/
  reverseArrowTypes : List Pattern
  hiddenTypes : List Pattern
  impliedConnections : List ImpliedConnection
  variants : List VariantRule
  cardinalityRules : List CardinalityRule
  consolidation : List ConsolidationRule
  protectiveTypes : List Pattern
  sharedServices : Option SharedServices
  autoLinks : List AutoLink
  phases : List PhaseConfig

/-! ### Reading -/

open Document

def ImpliedConnection.ofDocument? (d : Document) : Option ImpliedConnection := do
  let r ← d.record? ["keyword", "target"]
  pure ⟨← r.required? "keyword" asText?, ← r.required? "target" asText?⟩

def VariantRule.ofDocument? (d : Document) : Option VariantRule := do
  let r ← d.record? ["resource_type", "attribute", "values", "default"]
  pure {
    resourceType := ← r.required? "resource_type" asText?
    key := ← r.required? "attribute" asText?
    values := ← r.withDefault? "values" NodeMeta.labels? []
    default := ← r.optional? "default" asText? }

def CardinalityRule.ofDocument? (d : Document) : Option CardinalityRule := do
  let r ← d.record? ["resource_type", "attribute"]
  pure ⟨← r.required? "resource_type" asText?, ← r.required? "attribute" asText?⟩

def ConsolidationRule.ofDocument? (d : Document) : Option ConsolidationRule := do
  let r ← d.record? ["resource_type", "target"]
  pure ⟨← r.required? "resource_type" Pattern.ofDocument?, ← r.required? "target" asText?⟩

def SharedServices.ofDocument? (d : Document) : Option SharedServices := do
  let r ← d.record? ["container", "patterns"]
  pure ⟨← r.required? "container" asText?,
    ← r.required? "patterns" (listOf? Pattern.ofDocument?)⟩

def AutoLink.ofDocument? (d : Document) : Option AutoLink := do
  let r ← d.record? ["from", "to", "label"]
  pure ⟨← r.required? "from" asText?, ← r.required? "to" Pattern.ofDocument?,
    ← r.optional? "label" asText?⟩

/-- The name of a section. -/
def BuiltinPhase.name : BuiltinPhase → String
  | consolidation => "consolidation"
  | protective => "protective"
  | sharedServices => "shared_services"

/-- A section by its name. -/
def BuiltinPhase.ofDocument? (d : Document) : Option BuiltinPhase :=
  d.asText?.bind fun t => [consolidation, protective, sharedServices].find? fun x => x.name == t

/-- The name of an order. -/
def CallbackOrder.name : CallbackOrder → String
  | before => "before"
  | after => "after"

/-- An order by its name. -/
def CallbackOrder.ofDocument? (d : Document) : Option CallbackOrder :=
  d.asText?.bind fun t => [before, after].find? fun x => x.name == t

def HandlerConfig.ofDocument? (d : Document) : Option HandlerConfig := do
  let r ← d.record? ["description", "operations", "callback", "order"]
  pure {
    description := ← r.required? "description" asText?
    operations := ← r.withDefault? "operations" (listOf? Operation.ofDocument?) []
    callback := ← r.optional? "callback" asText?
    order := ← r.withDefault? "order" CallbackOrder.ofDocument? .after }

/-- Handlers by pattern. -/
def handlers? (d : Document) : Option (List (String × HandlerConfig)) :=
  (d.entriesOf? HandlerConfig.ofDocument?).map Keyed.ordered

def PhaseConfig.ofDocument? (d : Document) : Option PhaseConfig := do
  let r ← d.record? ["name", "builtin", "handlers"]
  pure {
    name := ← r.required? "name" asText?
    builtin := ← r.optional? "builtin" BuiltinPhase.ofDocument?
    handlers := ← r.withDefault? "handlers" handlers? [] }

/-- A text that may be left out. -/
def textOrNull (s : Option String) : Document := (s.map .text).getD .null

/-- The record of a link. -/
def AutoLink.toDocument (l : AutoLink) : Document :=
  .object [("from", .text l.source), ("to", .text l.target.text), ("label", textOrNull l.label)]

namespace Table

/-- A table without rules for a provider. -/
def empty (provider : String) : Table where
  provider := provider
  starts := []
  groupTypes := []
  reverseArrowTypes := []
  hiddenTypes := []
  impliedConnections := []
  variants := []
  cardinalityRules := []
  consolidation := []
  protectiveTypes := []
  sharedServices := none
  autoLinks := []
  phases := []

/-- The beginnings of a table's resource types: without any, the provider's name and an underscore.
    -/
def startsOrDefault (provider : String) (starts : List String) : List String :=
  if starts = [] then [provider ++ "_"] else starts

/-- The table of a record. -/
def ofDocument? (d : Document) : Option Table := do
  let r ← d.record? ["provider", "prefixes", "group_types", "reverse_arrow_types", "hidden_types",
    "implied_connections", "variants", "cardinality_rules", "consolidation", "protective_types",
    "shared_services", "auto_links", "phases"]
  let patterns := listOf? Pattern.ofDocument?
  let provider ← r.required? "provider" asText?
  pure {
    provider := provider
    starts := startsOrDefault provider (← r.withDefault? "prefixes" (listOf? asText?) [])
    groupTypes := ← r.withDefault? "group_types" patterns []
    reverseArrowTypes := ← r.withDefault? "reverse_arrow_types" patterns []
    hiddenTypes := ← r.withDefault? "hidden_types" patterns []
    impliedConnections :=
      ← r.withDefault? "implied_connections" (listOf? ImpliedConnection.ofDocument?) []
    variants := ← r.withDefault? "variants" (listOf? VariantRule.ofDocument?) []
    cardinalityRules :=
      ← r.withDefault? "cardinality_rules" (listOf? CardinalityRule.ofDocument?) []
    consolidation := ← r.withDefault? "consolidation" (listOf? ConsolidationRule.ofDocument?) []
    protectiveTypes := ← r.withDefault? "protective_types" patterns []
    sharedServices := ← r.optional? "shared_services" SharedServices.ofDocument?
    autoLinks := ← r.withDefault? "auto_links" (listOf? AutoLink.ofDocument?) []
    phases := ← r.withDefault? "phases" (listOf? PhaseConfig.ofDocument?) [] }

/-- The table of a YAML text. -/
def ofYaml? (text : String) : Except Error Table :=
  match (Yaml.parse? text).bind ofDocument? with
  | some t => .ok t
  | none => .error .yaml

/-! ### Merging -/

/-- A list without members that equal the one before. -/
def dropRepeats : List String → List String
  | a :: b :: rest => if a = b then dropRepeats (b :: rest) else a :: dropRepeats (b :: rest)
  | l => l

/-- Joins a phase to the first one of its name, or puts it behind all. -/
def mergePhase : List PhaseConfig → PhaseConfig → List PhaseConfig
  | [], new => [new]
  | p :: rest, new =>
    if p.name = new.name then
      { p with
        handlers := new.handlers.foldl (fun hs (k, h) => Keyed.put k h hs) p.handlers
        builtin := new.builtin.or p.builtin } :: rest
    else p :: mergePhase rest new

/-- Puts a table over another. -/
def merge (t new : Table) : Table where
  provider := t.provider
  starts := dropRepeats (t.starts ++ new.starts)
  groupTypes := t.groupTypes ++ new.groupTypes
  reverseArrowTypes := t.reverseArrowTypes ++ new.reverseArrowTypes
  hiddenTypes := t.hiddenTypes ++ new.hiddenTypes
  impliedConnections := t.impliedConnections ++ new.impliedConnections
  variants := t.variants ++ new.variants
  cardinalityRules := t.cardinalityRules ++ new.cardinalityRules
  consolidation := t.consolidation ++ new.consolidation
  protectiveTypes := t.protectiveTypes ++ new.protectiveTypes
  sharedServices := new.sharedServices.or t.sharedServices
  autoLinks := t.autoLinks ++ new.autoLinks
  phases := new.phases.foldl mergePhase t.phases

/-! ### Printing -/

/-- A list of patterns. -/
def patternList (ps : List Pattern) : Document := .list (ps.map fun p => .text p.text)

/-- The record of a phase. -/
def phaseDocument (p : PhaseConfig) : Document :=
  .object [("name", .text p.name), ("builtin", textOrNull (p.builtin.map BuiltinPhase.name)),
    ("handlers", .object (p.handlers.map fun (k, h) => (k, .object [
      ("description", .text h.description),
      ("operations", .list (h.operations.map Operation.toDocument)),
      ("callback", textOrNull h.callback), ("order", .text h.order.name)])))]

/-- The record of a table. -/
def toDocument (t : Table) : Document :=
  .object [("provider", .text t.provider), ("prefixes", .list (t.starts.map .text)),
    ("group_types", patternList t.groupTypes),
    ("reverse_arrow_types", patternList t.reverseArrowTypes),
    ("hidden_types", patternList t.hiddenTypes),
    ("implied_connections", .list (t.impliedConnections.map fun c =>
      .object [("keyword", .text c.keyword), ("target", .text c.target)])),
    ("variants", .list (t.variants.map fun v => .object [
      ("resource_type", .text v.resourceType), ("attribute", .text v.key),
      ("values", .object (v.values.map fun (k, w) => (k, .text w))),
      ("default", textOrNull v.default)])),
    ("cardinality_rules", .list (t.cardinalityRules.map fun c =>
      .object [("resource_type", .text c.resourceType), ("attribute", .text c.key)])),
    ("consolidation", .list (t.consolidation.map fun c =>
      .object [("resource_type", .text c.resource.text), ("target", .text c.target)])),
    ("protective_types", patternList t.protectiveTypes),
    ("shared_services", match t.sharedServices with
      | some s => .object [("container", .text s.container), ("patterns", patternList s.patterns)]
      | none => .null),
    ("auto_links", .list (t.autoLinks.map AutoLink.toDocument)),
    ("phases", .list (t.phases.map phaseDocument))]

end Table

end Cartograph.Rules
