import Cartograph.Resolution.Passes

/-!
# Resolving plans

A plan with every attribute reduced as far as possible and every repetition turned into a number of
instances (`Plan.resolve`).

The beginning of a resolution has a slot for each variable, named expression, output and
repetition, and for each attribute of a resource that is not repeated (`State.ofPlan`). A variable
takes the value supplied for it, else the argument of the module's call, else its default; without
any of them it is not defined. Of several resources with one identifier the first counts.
-/

namespace Cartograph

namespace Resolution

/-- A resource with its attributes reduced as far as possible. -/
structure Resource where
  id : NodeId
  resourceType : String
  name : String
  module : String
  /-- The attributes as written. -/
  raw : Attributes
  /-- The attributes of the first instance. -/
  attributes : Attributes
  /-- The attributes of every instance, if there are several. -/
  instances : List Attributes
  instanceKeys : List String
  /-- The number of instances. -/
  cardinality : Nat
  /-- The resources that its expressions name, sorted. -/
  references : List NodeId
  /-- The resources that have to be there before. -/
  dependsOn : List NodeId

namespace State

/-- Adds what is to be said about malformed templates. -/
def reportMalformed (s : State) (node : Option NodeId) (messages : List String) : State :=
  messages.foldl (fun s m => s.report .malformed node m) s

/-- Adds a slot for a value as written. -/
def addValue (s : State) (slot : Slot) (module : String) (node : Option NodeId) (v : Value) :
    State :=
  let (source, faults) := Source.ofValue v
  (s.reportMalformed node faults).addSlot slot module source .sole

/-- The arguments of all calls by the variable they are for, each with the caller's module. -/
def argumentsOf (calls : List Plan.ModuleCall) : List (Slot × String × Value) :=
  Keyed.sorted <| calls.flatMap fun c =>
    c.arguments.map fun (name, v) => (.input c.path name, c.module, v)

/-- Adds the slot of a declared variable and removes its argument from those that are left. -/
def addInput (s : State × List (Slot × String × Value)) (i : Plan.Input) :
    State × List (Slot × String × Value) :=
  let slot := Slot.input i.module i.name
  let (s, arguments) := s
  let rest := Keyed.erase slot arguments
  match i.value, Keyed.find? slot arguments, i.default with
  | some v, _, _ => (s.addSlot slot i.module (.literal v) .sole, rest)
  | none, some (caller, v), _ => (s.addValue slot caller none v, rest)
  | none, none, some v => (s.addSlot slot i.module (.literal v) .sole, rest)
  | none, none, none => (s, rest)

/-- Adds the slot of a named expression. -/
def addLocal (s : State) (l : Plan.Local) : State :=
  let slot := Slot.named l.module l.name
  match Expression.parseExpression l.expression with
  | .ok e => s.addSlot slot l.module (.expr e (Text.trim l.expression)) .sole
  | .error f =>
    (s.report .malformed none ("local." ++ l.name ++ ": " ++ f.message)).addSlot slot l.module
      (.literal (.text l.expression)) .sole

/-- Adds the slots of a module's outputs. -/
def addOutputs (s : State) (c : Plan.ModuleCall) : State :=
  c.outputs.foldl (fun s (name, v) => s.addValue (.output c.path name) c.path none v) s

/-- Adds a declared resource. -/
def addDeclared (s : State) (r : Plan.Resource) : State :=
  let id := r.id
  let (attributes, faults) := Source.ofEntries r.attributes
  let s := s.reportMalformed (some id) faults
  let (repetition, written) := match r.count, r.forEach with
    | some v, _ => (Repeat.count, some v)
    | none, some v => (Repeat.forEach, some v)
    | none, none => (Repeat.single, none)
  let s := if r.count.isSome && r.forEach.isSome then
      s.report .approximation (some id) "both count and for_each set; using count"
    else s
  let s := { s with
    declared := Keyed.insert id ⟨r, repetition, attributes, none, []⟩ s.declared }
  match written with
  | some v => s.addValue (.extent id) r.module (some id) v
  | none => s.setInstances id [.sole] []

/-- Adds a resource. -/
def addResource (s : State) (r : Plan.Resource) : State :=
  if r.isData then { s with data := Keyed.insert r.id r s.data }
  else if Keyed.contains r.id s.declared then s
  else s.addDeclared r

/-- The beginning of the resolution of a plan. -/
def ofPlan (p : Plan) : State :=
  let start : State := ⟨p.calls.map Plan.ModuleCall.path, [], [], [], []⟩
  let (s, undeclared) := p.inputs.foldl addInput (start, argumentsOf p.calls)
  let s := undeclared.foldl (fun s (slot, caller, v) => s.addValue slot caller none v) s
  let s := p.locals.foldl addLocal s
  let s := p.calls.foldl addOutputs s
  p.resources.foldl addResource s

/-! ### The result -/

/-- The value of an attribute in the end. -/
def finalValue (s : State) (slot : Slot) : Value :=
  match Keyed.find? slot s.cells with
  | some ⟨_, _, _, some v⟩ => v
  | _ => .unresolved slot.text

/-- The attributes of an instance in the end. -/
def finalAttributes (s : State) (id : NodeId) (d : Declared) (i : Nat) : Attributes :=
  d.attributes.map fun (name, _) => (name, s.finalValue (.attr id i name))

/-- The resources that the expressions of a resource name. -/
def referencesOf (s : State) (id : NodeId) (d : Declared) : List NodeId :=
  let ofExtent := match Keyed.find? (.extent id) s.cells with
    | some c => c.source.references
    | none => []
  let targets := (Source.referencesOfEach d.attributes ++ ofExtent).filterMap
    (resourceOf? d.record.module)
  Keyed.keySet (targets.filter fun t => t ≠ id ∧ Keyed.contains t s.declared)

/-- The resources that an entry of `dependsOn` stands for: a module stands for all that is in it. -/
def targetsOf (s : State) (module target : String) : List NodeId :=
  let target := Text.trim target
  match Text.dropStart? "module." target with
  | some name =>
    let start := Plan.childPath module name ++ "."
    (s.declared.map (·.1)).filter fun id => start.toList.isPrefixOf id.toList
  | none =>
    let id := Slot.inModule module target
    if Keyed.contains id s.declared then [id] else []

/-- What a declared resource comes to; nothing if it has no instances. -/
def resource? (s : State) (id : NodeId) (d : Declared) : Option Resource :=
  let n := (d.instances.map List.length).getD 1
  if n = 0 then none
  else
    let all := (List.range n).map (s.finalAttributes id d)
    some {
      id := id
      resourceType := d.record.resourceType
      name := d.record.name
      module := d.record.module
      raw := d.record.attributes
      attributes := all.headD []
      instances := if n = 1 then [] else all
      instanceKeys := d.keys
      cardinality := n
      references := s.referencesOf id d
      dependsOn := d.record.dependsOn.flatMap (s.targetsOf d.record.module) }

/-- The identifiers of the declared resources of a plan in its order, each once. -/
def idsOf (p : Plan) : List NodeId :=
  (p.managed.map Plan.Resource.id).foldl (fun ids id => if id ∈ ids then ids else ids ++ [id]) []

end State

end Resolution

/-- A plan with everything reduced as far as possible. -/
structure Resolution where
  resources : List Resolution.Resource
  /-- The tool's own edges between declared resources. -/
  dependencies : List Plan.Dependency
  diagnostics : List Diagnostic
  /-- The number of passes. -/
  iterations : Nat

/-- The number of passes that is enough for any plan in practice. -/
def defaultBudget : Nat := 64

/-- Reduces a plan as far as possible in a number of passes, at least one. -/
def Plan.resolve (p : Plan) (budget : Nat) : Resolution :=
  let (s, iterations) := (Resolution.State.ofPlan p).run (max 1 budget)
  { resources := (Resolution.State.idsOf p).filterMap fun id =>
      (Keyed.find? id s.declared).bind (s.resource? id)
    dependencies := p.dependencies.filter fun d =>
      Keyed.contains d.source s.declared && Keyed.contains d.target s.declared
    diagnostics := s.diagnostics
    iterations := iterations }

end Cartograph
