import Cartograph.Json.Reader
import Cartograph.NodeMeta

/-!
# Plans

What a planning tool hands over: resources with attributes as written, variables, locals, the
calls of modules, and the tool's own coarse dependencies. A module is named by its path, which is
empty for the root module and otherwise a chain of `module.<name>` pairs.

A plan is read from a JSON record, in which only names, types and expressions have no default.
-/

namespace Cartograph

namespace Plan

/-- Whether a resource is declared or only read. -/
inductive Mode
  | managed
  | data
  deriving Repr, DecidableEq

/-- A resource as written. -/
structure Resource where
  resourceType : String
  name : String
  /-- The path of the declaring module. -/
  module : String
  mode : Mode
  attributes : Attributes
  /-- How many instances there are, as written. -/
  count : Option Value
  /-- The map or set with one instance for each member, as written. -/
  forEach : Option Value
  /-- Resources and modules that have to be there before, relative to the module. -/
  dependsOn : List String

/-- A declared variable of a module. -/
structure Input where
  module : String
  name : String
  default : Option Value
  /-- The value supplied for this run. -/
  value : Option Value

/-- A named expression of a module. -/
structure Local where
  module : String
  name : String
  /-- The text of the expression, without template marks. -/
  expression : String

/-- A call of a module. -/
structure ModuleCall where
  /-- The path of the calling module. -/
  module : String
  name : String
  source : String
  /-- Values for the variables of the called module, in the scope of the caller. -/
  arguments : Attributes
  /-- Values that the called module gives back, in its own scope. -/
  outputs : Attributes

/-- The tool's own edge between two full identifiers. -/
structure Dependency where
  source : NodeId
  target : NodeId
  deriving Repr, DecidableEq

/-- The path of a module that is called in another. -/
def childPath (parent name : String) : String :=
  if parent = "" then "module." ++ name else parent ++ ".module." ++ name

/-- The path of the module that a call creates. -/
def ModuleCall.path (c : ModuleCall) : String := childPath c.module c.name

/-- Whether a resource is only read. -/
def Resource.isData (r : Resource) : Bool := r.mode == .data

/-- The identifier of the name `data.<type>.<name>` in a module. -/
def dataId (module resourceType name : String) : NodeId :=
  NodeId.qualified module "data" (resourceType ++ "." ++ name)

/-- The identifier of a resource. -/
def Resource.id (r : Resource) : NodeId :=
  match r.mode with
  | .managed => NodeId.qualified r.module r.resourceType r.name
  | .data => dataId r.module r.resourceType r.name

end Plan

/-- All records of a plan. -/
structure Plan where
  resources : List Plan.Resource
  inputs : List Plan.Input
  locals : List Plan.Local
  calls : List Plan.ModuleCall
  dependencies : List Plan.Dependency

namespace Plan

/-- The plan without records. -/
def empty : Plan := ⟨[], [], [], [], []⟩

/-- The resources that are declared. -/
def managed (p : Plan) : List Resource := p.resources.filter fun r => !r.isData

/-! ### Reading -/

/-- A mode by its name. -/
def Mode.ofDocument? (d : Document) : Option Mode :=
  match d.asTag? with
  | some "managed" => some .managed
  | some "data" => some .data
  | _ => none

def Resource.ofDocument? (d : Document) : Option Resource := do
  let r ← d.positionalRecord?
    ["type", "name", "module", "mode", "attributes", "count", "for_each", "depends_on"]
  pure {
    resourceType := ← r.required? "type" Document.asText?
    name := ← r.required? "name" Document.asText?
    module := ← r.withDefault? "module" Document.asText? ""
    mode := ← r.withDefault? "mode" Mode.ofDocument? .managed
    attributes := ← r.withDefault? "attributes" NodeMeta.attributes? []
    count := ← r.optional? "count" Value.ofDocument?
    forEach := ← r.optional? "for_each" Value.ofDocument?
    dependsOn := ← r.withDefault? "depends_on" (Document.listOf? Document.asText?) [] }

def Input.ofDocument? (d : Document) : Option Input := do
  let r ← d.positionalRecord? ["module", "name", "default", "value"]
  pure {
    module := ← r.withDefault? "module" Document.asText? ""
    name := ← r.required? "name" Document.asText?
    default := ← r.optional? "default" Value.ofDocument?
    value := ← r.optional? "value" Value.ofDocument? }

def Local.ofDocument? (d : Document) : Option Local := do
  let r ← d.positionalRecord? ["module", "name", "expression"]
  pure {
    module := ← r.withDefault? "module" Document.asText? ""
    name := ← r.required? "name" Document.asText?
    expression := ← r.required? "expression" Document.asText? }

def ModuleCall.ofDocument? (d : Document) : Option ModuleCall := do
  let r ← d.positionalRecord? ["module", "name", "source", "arguments", "outputs"]
  pure {
    module := ← r.withDefault? "module" Document.asText? ""
    name := ← r.required? "name" Document.asText?
    source := ← r.withDefault? "source" Document.asText? ""
    arguments := ← r.withDefault? "arguments" NodeMeta.attributes? []
    outputs := ← r.withDefault? "outputs" NodeMeta.attributes? [] }

def Dependency.ofDocument? (d : Document) : Option Dependency := do
  let r ← d.positionalRecord? ["from", "to"]
  pure {
    source := ← r.required? "from" Document.asText?
    target := ← r.required? "to" Document.asText? }

/-- The plan of a record. -/
def ofDocument? (d : Document) : Option Plan := do
  let r ← d.positionalRecord? ["resources", "variables", "locals", "modules", "dependencies"]
  pure {
    resources := ← r.withDefault? "resources" (Document.listOf? Resource.ofDocument?) []
    inputs := ← r.withDefault? "variables" (Document.listOf? Input.ofDocument?) []
    locals := ← r.withDefault? "locals" (Document.listOf? Local.ofDocument?) []
    calls := ← r.withDefault? "modules" (Document.listOf? ModuleCall.ofDocument?) []
    dependencies :=
      ← r.withDefault? "dependencies" (Document.listOf? Dependency.ofDocument?) [] }

/-- The plan of a JSON text. -/
def ofJson? (text : String) : Option Plan := (Json.parse? text).bind ofDocument?

/-! ### Printing -/

/-- A field that is left out if it has no value. -/
def presentField (name : String) (v : Option Value) : List (String × Document) :=
  (v.map fun v => (name, v.toDocument)).toList

/-- The name of a mode. -/
def Mode.name : Mode → String
  | managed => "managed"
  | data => "data"

def Resource.toDocument (r : Resource) : Document :=
  .object <|
    [("type", .text r.resourceType), ("name", .text r.name), ("module", .text r.module),
      ("mode", .text r.mode.name), ("attributes", NodeMeta.attributesDocument r.attributes)]
    ++ presentField "count" r.count ++ presentField "for_each" r.forEach
    ++ [("depends_on", .list (r.dependsOn.map .text))]

def Input.toDocument (i : Input) : Document :=
  .object <|
    [("module", .text i.module), ("name", .text i.name)]
    ++ presentField "default" i.default ++ presentField "value" i.value

def Local.toDocument (l : Local) : Document :=
  .object [("module", .text l.module), ("name", .text l.name), ("expression", .text l.expression)]

def ModuleCall.toDocument (c : ModuleCall) : Document :=
  .object [("module", .text c.module), ("name", .text c.name), ("source", .text c.source),
    ("arguments", NodeMeta.attributesDocument c.arguments),
    ("outputs", NodeMeta.attributesDocument c.outputs)]

def Dependency.toDocument (d : Dependency) : Document :=
  .object [("from", .text d.source), ("to", .text d.target)]

/-- The record of a plan. -/
def toDocument (p : Plan) : Document :=
  .object [("resources", .list (p.resources.map Resource.toDocument)),
    ("variables", .list (p.inputs.map Input.toDocument)),
    ("locals", .list (p.locals.map Local.toDocument)),
    ("modules", .list (p.calls.map ModuleCall.toDocument)),
    ("dependencies", .list (p.dependencies.map Dependency.toDocument))]

end Plan

end Cartograph
