import Cartograph.Diagnostic
import Cartograph.Plan
import Cartograph.Resolution.Slot
import Cartograph.Resolution.Source

/-!
# The state of a resolution

All slots of a plan with their sources and the values found so far. A slot is pending as long as it
has no value. The number of instances of a resource may itself be a slot; the attributes of its
instances become slots as soon as it is known (`State.setInstances`).

`State.scope` says what names stand for in a module. What it answers depends only on which slots
there are and which have values: a reference to a pending slot is pending, and an attribute that is
not written down stands for the identifier of its instance.
-/

namespace Cartograph.Resolution

open Expression

/-- How a resource is repeated. -/
inductive Repeat
  /-- Not at all. -/
  | single
  /-- So many times. -/
  | count
  /-- Once for each member of a map or set. -/
  | forEach
  deriving Repr, DecidableEq

/-- What tells an instance from the others. -/
inductive Instance
  | sole
  | numbered (i : Nat)
  | keyed (key : String) (value : Value)
  deriving Inhabited

/-- The names that are bound for an instance. -/
def Instance.bindings : Instance → Bindings
  | sole => []
  | numbered i => [("count", .map [("index", .int (Decimal.ofSize i))])]
  | keyed key value => [("each", .map [("key", .text key), ("value", value)])]

/-- What is known about a slot. -/
structure Cell where
  /-- The module in whose scope the source is evaluated. -/
  module : String
  source : Source
  instanceOf : Instance
  value : Option Value

/-- What is known about a declared resource. -/
structure Declared where
  record : Plan.Resource
  repetition : Repeat
  attributes : List (String × Source)
  /-- The instances, once their number is known. -/
  instances : Option (List Instance)
  /-- The keys of the instances in their order. -/
  keys : List String

/-- The state of a resolution. -/
structure State where
  /-- The paths of called modules. -/
  modules : List String
  /-- Declared resources, sorted. -/
  declared : List (NodeId × Declared)
  /-- Resources that are only read, sorted. -/
  data : List (NodeId × Plan.Resource)
  /-- All slots, sorted. -/
  cells : List (Slot × Cell)
  diagnostics : List Diagnostic

namespace State

/-- The slots without value, in their order. -/
def pending (s : State) : List Slot :=
  s.cells.filterMap fun (slot, c) => if c.value.isNone then some slot else none

/-- Adds a finding. -/
def report (s : State) (kind : Diagnostic.Kind) (node : Option NodeId) (message : String) : State :=
  { s with diagnostics := s.diagnostics ++ [⟨kind, node, message⟩] }

/-- Adds a pending slot. -/
def addSlot (s : State) (slot : Slot) (module : String) (source : Source) (i : Instance) : State :=
  { s with cells := Keyed.insert slot ⟨module, source, i, none⟩ s.cells }

/-- Records the value of a slot. -/
def setValue (s : State) (slot : Slot) (v : Value) : State :=
  { s with cells := Keyed.modify slot (fun c => { c with value := some v }) s.cells }

/-- The slots of an instance's attributes. -/
def addInstance (id : NodeId) (d : Declared) (s : State) (member : Instance × Nat) : State :=
  d.attributes.foldl (fun s (name, source) =>
    s.addSlot (.attr id member.2 name) d.record.module source member.1) s

/-- Fixes the instances of a resource. -/
def setInstances (s : State) (id : NodeId) (instances : List Instance) (keys : List String) :
    State :=
  match Keyed.find? id s.declared with
  | none => s
  | some d =>
    let known := { d with instances := some instances, keys := keys }
    instances.zipIdx.foldl (addInstance id d)
      { s with declared := Keyed.insert id known s.declared }

/-! ### What names stand for -/

/-- The identifier of an instance: numbered from one if there are several. -/
def instanceId (id : NodeId) (d : Declared) (i : Nat) : NodeId :=
  match d.instances with
  | some (_ :: _ :: _) => NodeId.withSuffix id (i + 1)
  | _ => id

/-- What is answered about a slot. -/
def slotAnswer (s : State) (slot : Slot) (taken : Nat) : Answer :=
  match Keyed.find? slot s.cells with
  | none => .missing (slot.text ++ " is not defined")
  | some c =>
    match c.value with
    | some v => .found v taken
    | none => .pending

/-- The value of an attribute of an instance, unless it is pending. What is not written down is
    known only afterwards, and the instance's identifier stands for it. -/
def attrValue? (s : State) (id : NodeId) (d : Declared) (i : Nat) (name : String) : Option Value :=
  match Keyed.find? (.attr id i name) s.cells with
  | some c => c.value
  | none => some (.text (instanceId id d i))

/-- All attributes of an instance, unless one is pending. -/
def objectValue? (s : State) (id : NodeId) (d : Declared) (i : Nat) : Option Value := do
  let entries ← d.attributes.mapM fun (name, _) => (s.attrValue? id d i name).map fun v => (name, v)
  pure <| .map <|
    if Keyed.contains "id" entries then entries
    else Keyed.insert "id" (.text (instanceId id d i)) entries

/-- An attribute, or all of them, of every one of `n` instances. -/
def everyValue? (s : State) (id : NodeId) (d : Declared) (n : Nat) (name : Option String) :
    Option (List Value) :=
  (List.range n).mapM fun i =>
    match name with
    | some a => s.attrValue? id d i a
    | none => s.objectValue? id d i

/-- The answer that gives a value, if it is not pending. -/
def answerWith (v : Option Value) (taken : Nat) : Answer :=
  match v with
  | some v => .found v taken
  | none => .pending

/-- The place of the instance that an index names. -/
def instanceAt? (d : Declared) (n : Nat) (key : Value) : Option Nat :=
  match d.repetition with
  | .forEach => key.asText?.bind fun k => d.keys.findIdx? (· == k)
  | _ => key.asInt?.bind fun i => if 0 ≤ i ∧ i < n then some i.toNat else none

/-- What is answered about a resource with known instances and the steps behind its name. Without an
    index, a resource with several instances reads like a splat over them. -/
def instancesAnswer (s : State) (id : NodeId) (d : Declared) (n : Nat) : List Step → Answer
  | .index key :: rest =>
    match instanceAt? d n key with
    | none => .missing (id ++ " has no instance " ++ key.toText)
    | some i =>
      match rest with
      | .attr a :: _ => answerWith (s.attrValue? id d i a) 3
      | _ => answerWith (s.objectValue? id d i) 2
  | .splat :: .attr a :: _ => answerWith ((s.everyValue? id d n (some a)).map .list) 3
  | .splat :: _ => answerWith ((s.everyValue? id d n none).map .list) 2
  | .attr a :: _ =>
    match d.repetition with
    | .single => answerWith (s.attrValue? id d 0 a) 2
    | _ => answerWith ((s.everyValue? id d n (some a)).map .list) 2
  | [] =>
    match d.repetition with
    | .single => answerWith (s.objectValue? id d 0) 1
    | .count => answerWith ((s.everyValue? id d n none).map .list) 1
    | .forEach =>
      answerWith ((s.everyValue? id d n none).map fun vs => .map (Keyed.sorted (d.keys.zip vs))) 1

/-- What is answered about a resource type and the steps behind it. -/
def resourceAnswer (s : State) (module resourceType : String) : List Step → Answer
  | .attr name :: rest =>
    let id := NodeId.qualified module resourceType name
    match Keyed.find? id s.declared with
    | none => .missing ("unknown resource '" ++ id ++ "'")
    | some d =>
      match d.instances with
      | none => .pending
      | some instances => s.instancesAnswer id d instances.length rest
  | _ => .missing ("unknown reference '" ++ resourceType ++ "'")

/-- Whether a value is a text with a template in it. -/
def isTemplate : Value → Bool
  | .text t => Text.isPart "$\x7b" t
  | _ => false

/-- The attributes of a resource that is only read. -/
def dataAttributes (s : State) (id : NodeId) : Attributes :=
  match Keyed.find? id s.data with
  | some r => r.attributes
  | none => []

/-- What is answered about a resource that is only read: attributes without templates as written,
    and its identifier for all others. -/
def dataAnswer (s : State) (module : String) : List Step → Answer
  | .attr resourceType :: .attr name :: rest =>
    let id := Plan.dataId module resourceType name
    let attributes := s.dataAttributes id
    match rest with
    | .attr a :: _ =>
      match Keyed.find? a attributes with
      | some v => .found (if isTemplate v then .text id else v) 3
      | none => .found (.text id) 3
    | _ =>
      let entries := if Keyed.contains "id" attributes then attributes
        else Keyed.insert "id" (.text id) attributes
      .found (.map entries) 2
  | _ => .missing "incomplete data source reference"

/-- The outputs of a module by name, with what is known of each. -/
def outputsOf (s : State) (path : String) : List (String × Option Value) :=
  s.cells.filterMap fun (slot, c) =>
    match slot with
    | .output module name => if module = path then some (name, c.value) else none
    | _ => none

/-- What is answered about a called module. -/
def moduleAnswer (s : State) (module : String) : List Step → Answer
  | .attr name :: rest =>
    let path := Plan.childPath module name
    if !s.modules.contains path then .missing ("unknown module '" ++ path ++ "'")
    else match rest with
      | .attr output :: _ => s.slotAnswer (.output path output) 2
      | _ =>
        match (s.outputsOf path).mapM fun (name, v) => v.map fun v => (name, v) with
        | some entries => .found (.map entries) 1
        | none => .pending
  | _ => .missing "'module' needs a module name"

/-- What is answered about a table with one name behind its own. -/
def tableAnswer (s : State) (table : String) (slot : String → Slot) : List Step → Answer
  | .attr name :: _ => s.slotAnswer (slot name) 1
  | _ => .missing ("'" ++ table ++ "' needs an attribute")

/-- What names stand for in a module. -/
def scope (s : State) (module : String) : Scope where
  lookup root steps :=
    match root with
    | "var" => s.tableAnswer "var" (.input module) steps
    | "local" => s.tableAnswer "local" (.named module) steps
    | "module" => s.moduleAnswer module steps
    | "path" =>
      .found (.map [("cwd", .text "."), ("module", .text "."), ("root", .text ".")]) 0
    | "terraform" => .found (.map [("workspace", .text "default")]) 0
    | "data" => s.dataAnswer module steps
    | "count" => .missing "'count' is not available here"
    | "each" => .missing "'each' is not available here"
    | "self" => .missing "'self' is not available here"
    | resourceType => s.resourceAnswer module resourceType steps

/-! ### Evaluating slots -/

/-- The value of a slot's source in the present state. -/
def evaluate (s : State) (c : Cell) : Result Value :=
  c.source.eval (s.scope c.module) c.instanceOf.bindings

/-- The value of a slot's source with placeholders. -/
def placeholderOf (s : State) (slot : Slot) : Value :=
  match Keyed.find? slot s.cells with
  | some c => c.source.evalLenient (s.scope c.module) c.instanceOf.bindings
  | none => .unresolved slot.text

end State

/-! ### Static references -/

/-- Root names that stand for no resource type. -/
def reservedRoots : List String :=
  ["var", "local", "module", "data", "count", "each", "path", "terraform", "self"]

/-- The slots that a reference in a module may read. -/
def State.slotsOf (s : State) (module : String) (r : Reference) : List Slot :=
  let first := r.attributes.headD ""
  let second := r.attributes[1]?
  if r.root = "var" then [.input module first]
  else if r.root = "local" then [.named module first]
  else if r.root = "module" then
    let path := Plan.childPath module first
    match second with
    | some name => [.output path name]
    | none => (s.outputsOf path).map fun (name, _) => .output path name
  else if reservedRoots.contains r.root then []
  else
    let id := NodeId.qualified module r.root first
    .extent id :: s.cells.filterMap fun (slot, _) =>
      match slot with
      | .attr resource _ name =>
        if resource = id ∧ (second = none ∨ second = some name) then some slot else none
      | _ => none

/-- The resource that a reference in a module names. -/
def resourceOf? (module : String) (r : Reference) : Option NodeId :=
  if reservedRoots.contains r.root then none
  else r.attributes.head?.map (NodeId.qualified module r.root)

end Cartograph.Resolution
