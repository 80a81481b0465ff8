import Cartograph.Value

/-!
# Expressions

The tree of an expression, and the names it refers to.

A *chain* is a name followed by steps: attributes, indices and splats (`Expr.chain?`). The
references of an expression are the chains in it that are not part of a longer one, each with the
attribute names on it in order; indices on a chain hold references of their own. The names bound
by a `for` are no references inside it (`Expr.references`).
-/

namespace Cartograph

/-- A part of a template. -/
inductive Expr.Piece (α : Type)
  | literal (s : String)
  | interpolation (e : α)

/-- A step behind a splat, taken by every member. -/
inductive Expr.Traversal (α : Type)
  | attr (name : String)
  | index (e : α)

/-- An operator with one operand. -/
inductive Expr.UnaryOp
  | not
  | neg
  deriving Repr, DecidableEq

/-- An operator with two operands. -/
inductive Expr.BinaryOp
  | or
  | and
  | eq
  | ne
  | lt
  | le
  | gt
  | ge
  | add
  | sub
  | mul
  | div
  | mod
  deriving Repr, DecidableEq

/-- Whether a value can be written down on its own: a scalar, and an integer that fits. -/
def Value.isLiteral : Value → Bool
  | .null => true
  | .bool _ => true
  | .int i => Decimal.minInt ≤ i && i ≤ Decimal.maxInt
  | .float _ => true
  | .text _ => true
  | _ => false

/-- An expression. -/
inductive Expr
  | literal (v : Value) {h : v.isLiteral = true}
  | template (pieces : List (Expr.Piece Expr))
  | list (items : List Expr)
  | object (entries : List (Expr × Expr))
  /-- A root name: of a table of values, a resource type, or a name bound by a `for`. -/
  | root (name : String)
  | attr (e : Expr) (name : String)
  | index (e key : Expr)
  | splat (e : Expr) (steps : List (Expr.Traversal Expr))
  | unary (op : Expr.UnaryOp) (e : Expr)
  | binary (op : Expr.BinaryOp) (a b : Expr)
  | conditional (c a b : Expr)
  /-- A call; the last argument may be a list that is spread (`spread`). -/
  | call (name : String) (args : List Expr) (spread : Bool)
  /-- One member for each member of a collection, or one entry if there is a key; with `grouping`,
      values with one key are collected in a list. -/
  | forEach (keyVar : Option String) (valueVar : String) (collection : Expr) (key : Option Expr)
      (value : Expr) (condition : Option Expr) (grouping : Bool)
  deriving Inhabited

/-- A name and the attributes on the chain behind it. -/
structure Reference where
  root : String
  attributes : List String
  deriving Repr, DecidableEq

namespace Expr

/-- The attribute names among the steps behind a splat. -/
def Traversal.names {α : Type} (steps : List (Traversal α)) : List String :=
  steps.filterMap fun
    | .attr name => some name
    | .index _ => none

/-- The reference of an expression that is a chain. -/
def chain? : Expr → Option Reference
  | root r => some ⟨r, []⟩
  | attr e name => e.chain?.map fun r => { r with attributes := r.attributes ++ [name] }
  | index e _ => e.chain?
  | splat e steps =>
    e.chain?.map fun r => { r with attributes := r.attributes ++ Traversal.names steps }
  | _ => none

mutual

/-- The references in an expression. With `inChain` the expression is part of a longer chain, which
    has been counted. -/
def refs (inChain : Bool) : Expr → List Reference
  | literal _ => []
  | template pieces => refsOfPieces pieces
  | list items => refsOfList items
  | object entries => refsOfEntries entries
  | root r => if inChain then [] else [⟨r, []⟩]
  | attr e name =>
    (if inChain then [] else ((attr e name).chain?).toList) ++ refs true e
  | index e key =>
    (if inChain then [] else ((index e key).chain?).toList) ++ refs true e ++ refs false key
  | splat e steps =>
    (if inChain then [] else ((splat e steps).chain?).toList) ++ refs true e ++ refsOfSteps steps
  | unary _ e => refs false e
  | binary _ a b => refs false a ++ refs false b
  | conditional c a b => refs false c ++ refs false a ++ refs false b
  | call _ args _ => refsOfList args
  | forEach keyVar valueVar collection key value condition _ =>
    refs false collection
      ++ (refsOfOption key ++ refs false value ++ refsOfOption condition).filter fun r =>
        !(r.root == valueVar || keyVar == some r.root)

def refsOfList : List Expr → List Reference
  | [] => []
  | e :: es => refs false e ++ refsOfList es

def refsOfEntries : List (Expr × Expr) → List Reference
  | [] => []
  | (k, v) :: es => refs false k ++ refs false v ++ refsOfEntries es

def refsOfPieces : List (Piece Expr) → List Reference
  | [] => []
  | .literal _ :: ps => refsOfPieces ps
  | .interpolation e :: ps => refs false e ++ refsOfPieces ps

def refsOfSteps : List (Traversal Expr) → List Reference
  | [] => []
  | .attr _ :: ss => refsOfSteps ss
  | .index e :: ss => refs false e ++ refsOfSteps ss

def refsOfOption : Option Expr → List Reference
  | none => []
  | some e => refs false e

end

/-- The references in an expression, from left to right. -/
def references (e : Expr) : List Reference := refs false e

end Expr

end Cartograph
