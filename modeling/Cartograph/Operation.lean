import Cartograph.Pattern

/-!
# Operations

What a rule table can ask to be done to a graph. An operation names the nodes it acts on by
patterns; where it may leave them open it acts on the nodes that its handler is for. In a table an
operation is a record whose field `op` names its kind.
-/

namespace Cartograph

/-- Which way values spread along edges. -/
inductive Direction
  /-- From a node to its parents. -/
  | up
  /-- From a node to its children. -/
  | down
  /-- From all children, put together, to the node. -/
  | fromChildren
  deriving Repr, DecidableEq

/-- How a value meets one that is there. -/
inductive Aggregation
  | max
  | min
  | sum
  | replace
  | keepExisting
  deriving Repr, DecidableEq

/-- What is done to edges between two sets of nodes. -/
inductive LinkAction
  | add
  | remove
  deriving Repr, DecidableEq

/-- How a node between a parent and a child gets its name from the child. -/
structure NameGenerator where
  resourceType : String
  /-- The attribute of the child that gives the name. -/
  key : String
  /-- What stands before the name. -/
  start : String
  /-- The name if the attribute gives none. -/
  fallback : Option String
  /-- Whether the number of the child's instance is taken over. -/
  includeSuffix : Bool
  deriving Repr, DecidableEq

/-- An operation on a graph. -/
inductive Operation
  /-- Puts a node between parents and children. -/
  | insertIntermediate (parent child : Pattern) (generator : NameGenerator)
  /-- Turns nodes from children of what refers to them into containers around it. -/
  | reverseRelation (resource : Option Pattern)
  /-- Merges nodes into one. -/
  | consolidate (resource : Pattern) (target : NodeId)
  /-- Spreads the values of an attribute along edges. -/
  | propagate (key : String) (direction : Direction) (aggregation : Aggregation)
      (transitive : Bool) (resource : Option Pattern)
  /-- Removes edges between instances with different numbers. -/
  | matchBySuffix (first second : Pattern)
  /-- Moves nodes into the nearest node of a kind. -/
  | move (resource : Option Pattern) (target : Pattern)
  /-- Adds or removes all edges between two sets of nodes. -/
  | relink (source target : Pattern) (action : LinkAction)
  /-- Removes nodes; with `keepEdges` their parents take over their children. -/
  | delete (resource : Option Pattern) (keepEdges : Bool)
  /-- Puts nodes into a container. -/
  | group (container : NodeId) (members : List Pattern)
  deriving Repr, DecidableEq

namespace Direction

/-- The name of a direction. -/
def name : Direction → String
  | up => "up"
  | down => "down"
  | fromChildren => "from_children"

/-- A direction by its name. -/
def ofDocument? (d : Document) : Option Direction :=
  d.asTag?.bind fun t => [up, down, fromChildren].find? fun x => x.name == t

end Direction

namespace Aggregation

/-- The name of an aggregation. -/
def name : Aggregation → String
  | max => "max"
  | min => "min"
  | sum => "sum"
  | replace => "replace"
  | keepExisting => "keep_existing"

/-- An aggregation by its name. -/
def ofDocument? (d : Document) : Option Aggregation :=
  d.asTag?.bind fun t => [max, min, sum, replace, keepExisting].find? fun x => x.name == t

end Aggregation

namespace LinkAction

/-- The name of an action. -/
def name : LinkAction → String
  | add => "add"
  | remove => "remove"

/-- An action by its name. -/
def ofDocument? (d : Document) : Option LinkAction :=
  d.asTag?.bind fun t => [add, remove].find? fun x => x.name == t

end LinkAction

/-- The pattern of a text. -/
def Pattern.ofDocument? (d : Document) : Option Pattern :=
  d.asText?.bind fun s => (Pattern.parse? s).toOption

/-- The generator of a record. -/
def NameGenerator.ofDocument? (d : Document) : Option NameGenerator := do
  let r ← d.positionalRecord?
    ["resource_type", "attribute", "prefix", "fallback", "include_suffix"]
  pure {
    resourceType := ← r.required? "resource_type" Document.asText?
    key := ← r.required? "attribute" Document.asText?
    start := ← r.withDefault? "prefix" Document.asText? ""
    fallback := ← r.optional? "fallback" Document.asText?
    includeSuffix := ← r.withDefault? "include_suffix" Document.asBool? false }

/-- The record of a generator. -/
def NameGenerator.toDocument (g : NameGenerator) : Document :=
  .object [("resource_type", .text g.resourceType), ("attribute", .text g.key),
    ("prefix", .text g.start), ("fallback", (g.fallback.map .text).getD .null),
    ("include_suffix", .bool g.includeSuffix)]

namespace Operation

/-- The name of an operation's kind. -/
def name : Operation → String
  | insertIntermediate .. => "insert_intermediate"
  | reverseRelation _ => "reverse_relation"
  | consolidate .. => "consolidate"
  | propagate .. => "propagate_metadata"
  | matchBySuffix .. => "match_by_suffix"
  | move .. => "move"
  | relink .. => "relink"
  | delete .. => "delete"
  | group .. => "group"

/-- The kind of a record, and the record without it. -/
def tagged? : Document → Option (String × Document)
  | .list (kind :: rest) => kind.asTag?.map fun k => (k, .list rest)
  | .fields entries =>
    match entries.filter fun e => e.1.text == "op" with
    | [(_, kind)] =>
      kind.asTag?.map fun k => (k, .fields (entries.filter fun e => e.1.text != "op"))
    | _ => none
  | _ => none

/-- The operation of a kind from the rest of its record. -/
def ofFields? (kind : String) (d : Document) : Option Operation :=
  match kind with
  | "insert_intermediate" => do
    let r ← d.positionalRecord? ["parent", "child", "generator"]
    pure (.insertIntermediate (← r.required? "parent" Pattern.ofDocument?)
      (← r.required? "child" Pattern.ofDocument?)
      (← r.required? "generator" NameGenerator.ofDocument?))
  | "reverse_relation" => do
    let r ← d.positionalRecord? ["resource"]
    pure (.reverseRelation (← r.optional? "resource" Pattern.ofDocument?))
  | "consolidate" => do
    let r ← d.positionalRecord? ["resource_type", "target"]
    pure (.consolidate (← r.required? "resource_type" Pattern.ofDocument?)
      (← r.required? "target" Document.asText?))
  | "propagate_metadata" => do
    let r ← d.positionalRecord? ["key", "direction", "aggregation", "transitive", "resource"]
    pure (.propagate (← r.required? "key" Document.asText?)
      (← r.required? "direction" Direction.ofDocument?)
      (← r.withDefault? "aggregation" Aggregation.ofDocument? .max)
      (← r.withDefault? "transitive" Document.asBool? false)
      (← r.optional? "resource" Pattern.ofDocument?))
  | "match_by_suffix" => do
    let r ← d.positionalRecord? ["first", "second"]
    pure (.matchBySuffix (← r.required? "first" Pattern.ofDocument?)
      (← r.required? "second" Pattern.ofDocument?))
  | "move" => do
    let r ← d.positionalRecord? ["resource", "to"]
    pure (.move (← r.optional? "resource" Pattern.ofDocument?)
      (← r.required? "to" Pattern.ofDocument?))
  | "relink" => do
    let r ← d.positionalRecord? ["from", "to", "action"]
    pure (.relink (← r.required? "from" Pattern.ofDocument?)
      (← r.required? "to" Pattern.ofDocument?) (← r.required? "action" LinkAction.ofDocument?))
  | "delete" => do
    let r ← d.positionalRecord? ["resource", "keep_edges"]
    pure (.delete (← r.optional? "resource" Pattern.ofDocument?)
      (← r.withDefault? "keep_edges" Document.asBool? false))
  | "group" => do
    let r ← d.positionalRecord? ["container", "members"]
    pure (.group (← r.required? "container" Document.asText?)
      (← r.required? "members" (Document.listOf? Pattern.ofDocument?)))
  | _ => none

/-- The operation of a record. Scalars stand for what they are on their own. -/
def ofDocument? (d : Document) : Option Operation :=
  (tagged? d.settle).bind fun (kind, rest) => ofFields? kind rest

/-- A pattern that may be left open. -/
def patternDocument (p : Option Pattern) : Document :=
  match p with
  | some p => .text p.text
  | none => .null

/-- The fields of an operation beside its kind. -/
def fieldsOf : Operation → List (String × Document)
  | insertIntermediate parent child generator =>
    [("parent", .text parent.text), ("child", .text child.text),
      ("generator", generator.toDocument)]
  | reverseRelation resource => [("resource", patternDocument resource)]
  | consolidate resource target =>
    [("resource_type", .text resource.text), ("target", .text target)]
  | propagate key direction aggregation transitive resource =>
    [("key", .text key), ("direction", .text direction.name),
      ("aggregation", .text aggregation.name), ("transitive", .bool transitive),
      ("resource", patternDocument resource)]
  | matchBySuffix first second => [("first", .text first.text), ("second", .text second.text)]
  | move resource target =>
    [("resource", patternDocument resource), ("to", .text target.text)]
  | relink source target action =>
    [("from", .text source.text), ("to", .text target.text), ("action", .text action.name)]
  | delete resource keepEdges =>
    [("resource", patternDocument resource), ("keep_edges", .bool keepEdges)]
  | group container members =>
    [("container", .text container), ("members", .list (members.map fun p => .text p.text))]

/-- The record of an operation. -/
def toDocument (o : Operation) : Document := .object (("op", .text o.name) :: o.fieldsOf)

end Operation

end Cartograph
