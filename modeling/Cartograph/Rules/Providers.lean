import Cartograph.Diagnostic
import Cartograph.Rules.Aws
import Cartograph.Rules.Azure
import Cartograph.Rules.Context

/-!
# Providers of a run

The rule tables that are in force for the resource types of a run (`Providers.detect`): the tables
that are built in for these types, merged with further ones, the table of the most types first.
What is a container, hidden or a variant is asked of all of them together.
-/

namespace Cartograph.Rules

/-- The name that is used where no table is in force. -/
def genericName : String := "generic"

/-- The table that is built in for a provider. -/
def builtinTable? (provider : String) : Option Table :=
  if provider = "aws" then some Aws.table
  else if provider = "azurerm" then some Azure.table
  else none

/-- The tables in force, the primary one first. -/
structure Providers where
  contexts : List Context

/-- What has been found on the way through the types of a run. -/
structure Detection where
  tables : List Table
  /-- Types that no table is for. -/
  unknown : List String

namespace Detection

/-- Whether a further table is for a resource type. -/
def isClaimed (extra : List Table) (tag resourceType : String) : Bool :=
  extra.any fun t =>
    t.provider == tag || t.starts.any fun start => start.toList.isPrefixOf resourceType.toList

/-- Takes a resource type into account. -/
def addType (extra : List Table) (d : Detection) (resourceType : String) : Detection :=
  let tag := NodeId.providerOf resourceType
  if d.tables.any fun t => t.provider == tag then d
  else match builtinTable? tag with
    | some t => { d with tables := d.tables ++ [t] }
    | none =>
      if isClaimed extra tag resourceType then d
      else { d with unknown := d.unknown ++ [resourceType] }

/-- Merges a table into the one of its provider, or puts it behind all. -/
def addTable : List Table → Table → List Table
  | [], new => [new]
  | t :: rest, new =>
    if t.provider = new.provider then t.merge new :: rest else t :: addTable rest new

/-- The number of resource types whose name begins with a provider's. -/
def count (types : List String) (provider : String) : Nat :=
  (types.filter fun ty => NodeId.providerOf ty = provider).length

/-- Whether a table comes before another: it has more types, or as many and a smaller name. -/
def comesBefore (types : List String) (a b : Table) : Bool :=
  let m := count types a.provider
  let n := count types b.provider
  n < m || (m == n && !(b.provider < a.provider))

end Detection

namespace Providers

/-- The tables in force for some resource types, and a finding for each type that none is for. -/
def detect (types : List String) (extra : List Table) :
    Except Error (Providers × List Diagnostic) := do
  let types := Keyed.keySet types
  let found := types.foldl (Detection.addType extra) ⟨[], []⟩
  let tables := extra.foldl Detection.addTable found.tables
  -- The order of the tables also decides which malformed one is reported.
  let contexts ← (tables.mergeSort (Detection.comesBefore types)).mapM Context.compile
  pure (⟨contexts⟩, found.unknown.map fun ty =>
    ⟨.unknownResourceType, none,
      "no provider table for '" ++ ty ++ "', using generic treatment"⟩)

/-- The name of the primary provider. -/
def primary (p : Providers) : String :=
  match p.contexts with
  | c :: _ => c.name
  | [] => genericName

/-- The name of the provider whose table is for a resource type. -/
def nameFor (p : Providers) (resourceType : String) : String :=
  match p.contexts.find? fun c => c.claims resourceType with
  | some c => c.name
  | none => genericName

/-- Whether one of the patterns that tables list matches a resource type. -/
def anyPattern (p : Providers) (list : Table → List Pattern) (resourceType : String) : Bool :=
  p.contexts.any fun c => (list c.table).any fun q => q.matchesType resourceType

/-- Whether a resource type is drawn as a container. -/
def isGroup (p : Providers) (resourceType : String) : Bool :=
  p.anyPattern Table.groupTypes resourceType

/-- Whether a resource type becomes the parent of what refers to it. -/
def isReverseArrow (p : Providers) (resourceType : String) : Bool :=
  p.anyPattern Table.reverseArrowTypes resourceType

/-- Whether a resource type is not drawn. -/
def isHidden (p : Providers) (resourceType : String) : Bool :=
  p.anyPattern Table.hiddenTypes resourceType

/-- Whether a resource type is wrapped around what it protects. -/
def isProtective (p : Providers) (resourceType : String) : Bool :=
  p.anyPattern Table.protectiveTypes resourceType

/-- The variant of a resource by the first rule for its type. -/
def variant? (p : Providers) (resourceType : String) (attributes : Attributes) :
    Option String := do
  let rule ← (p.contexts.flatMap fun c => c.table.variants).find? fun r =>
    r.resourceType == resourceType
  let chosen := (Keyed.find? rule.key attributes).bind fun v =>
    v.asText?.bind fun t => Keyed.find? t rule.values
  chosen.or rule.default

/-- The rules that count the members of an attribute of a resource type. -/
def cardinalityRules (p : Providers) (resourceType : String) : List CardinalityRule :=
  (p.contexts.flatMap fun c => c.table.cardinalityRules).filter fun r =>
    r.resourceType == resourceType

/-- The first attribute that is counted and is a list, with its members. -/
def countedList? (p : Providers) (resourceType : String) (attributes : Attributes) :
    Option (String × List Value) :=
  (p.cardinalityRules resourceType).findSome? fun r =>
    (Keyed.find? r.key attributes).bind fun v => v.asList?.map fun items => (r.key, items)

/-- All expressions that imply a connection. -/
def implied (p : Providers) : List (ImpliedConnection × Regex.Program) :=
  p.contexts.flatMap Context.implied

/-- All made-up nodes with their edges. -/
def autoLinks (p : Providers) : List AutoLink := p.contexts.flatMap fun c => c.table.autoLinks

end Providers

end Cartograph.Rules
