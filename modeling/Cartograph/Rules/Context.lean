import Cartograph.Regex.Machine
import Cartograph.Regex.Reader
import Cartograph.Rules.Table

/-!
# Compiled rule tables

A rule table that is ready for use: regular expressions and patterns are parsed, and callbacks are
found by their names (`Context.compile`). A table with a malformed expression or pattern, a handler
without description or without anything to do, or an unknown callback does not compile.
-/

namespace Cartograph.Rules

/-- A way of arranging nodes that no operation covers. -/
inductive Callback
  /-- Puts node groups into their clusters and shows their worker nodes. -/
  | eksNodeGroups
  /-- Connects load balancers with target groups instead of listeners. -/
  | lbListeners
  deriving Repr, DecidableEq

namespace Callback

/-- The name of a callback in tables. -/
def name : Callback → String
  | eksNodeGroups => "aws_eks_node_groups"
  | lbListeners => "aws_lb_listeners"

/-- All callbacks, sorted by name. -/
def all : List Callback := [eksNodeGroups, lbListeners]

/-- The callback of a name. -/
def ofName? (s : String) : Option Callback := all.find? fun c => c.name == s

end Callback

/-- What is done to the nodes that a pattern matches. -/
structure Handler where
  pattern : Pattern
  description : String
  operations : List Operation
  callback : Option Callback
  order : CallbackOrder

/-- A step of arranging a graph. -/
structure Phase where
  name : String
  handlers : List Handler

/-- A rule table that is ready for use. -/
structure Context where
  table : Table
  /-- Expressions that imply a connection, with the type they lead to. -/
  implied : List (ImpliedConnection × Regex.Program)
  phases : List Phase

namespace Handler

/-- A handler that consists of one operation. -/
def ofOperation (pattern : Pattern) (description : String) (operation : Operation) : Handler :=
  ⟨pattern, description, [operation], none, .after⟩

/-- The handler of a table's entry. -/
def compile (key : String) (c : HandlerConfig) : Except Error Handler := do
  if Text.trim c.description = "" then throw (.invalidHandler key .noDescription)
  if c.operations.isEmpty && c.callback.isNone then throw (.invalidHandler key .nothingToDo)
  let callback ← match c.callback with
    | none => pure none
    | some name =>
      match Callback.ofName? name with
      | some callback => pure (some callback)
      | none => throw (.unknownCallback name)
  let pattern ← Pattern.parse? key
  pure ⟨pattern, c.description, c.operations, callback, c.order⟩

end Handler

namespace BuiltinPhase

/-- The handlers that a section of a table stands for. -/
def handlers (t : Table) : BuiltinPhase → List Handler
  | consolidation => t.consolidation.map fun r =>
    .ofOperation r.resource ("consolidate " ++ r.resource.text ++ " into " ++ r.target)
      (.consolidate r.resource r.target)
  | protective => t.protectiveTypes.map fun p =>
    .ofOperation p ("wrap resources protected by " ++ p.text) (.reverseRelation none)
  | sharedServices =>
    match t.sharedServices with
    | none => []
    | some s =>
      match Pattern.parse? s.container with
      | .error _ => []
      | .ok p => [.ofOperation p ("group shared services under " ++ s.container)
          (.group s.container s.patterns)]

end BuiltinPhase

namespace Context

/-- The program of an expression that implies a connection. -/
def compileImplied (c : ImpliedConnection) :
    Except Error (ImpliedConnection × Regex.Program) :=
  match Regex.parse? c.keyword with
  | some r => .ok (c, r.program)
  | none => .error (.invalidPattern c.keyword .regex)

/-- The phase of a table's entry: the handlers of its section come first. -/
def compilePhase (t : Table) (p : PhaseConfig) : Except Error Phase := do
  let own ← p.handlers.mapM fun (key, c) => Handler.compile key c
  let fromSection := match p.builtin with
    | some section_ => section_.handlers t
    | none => []
  pure ⟨p.name, fromSection ++ own⟩

/-- A table made ready for use. -/
def compile (t : Table) : Except Error Context := do
  let implied ← t.impliedConnections.mapM compileImplied
  let phases ← t.phases.mapM (compilePhase t)
  pure ⟨t, implied, phases⟩

/-- The name of a context's provider. -/
def name (c : Context) : String := c.table.provider

/-- Whether a table is for a resource type. -/
def claims (c : Context) (resourceType : String) : Bool :=
  c.table.starts.any fun start => start.toList.isPrefixOf resourceType.toList

end Context

end Cartograph.Rules
