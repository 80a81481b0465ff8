import Cartograph.Expression
import Cartograph.Expression.Functions

/-!
# Evaluating expressions

The value of an expression in a scope (`Scope`) that answers what names stand for. A chain is
reduced to its root name and its steps before the scope is asked, so a scope sees concrete
indices; it answers for as many steps as it knows, and the others are taken through the value it
gives (`takeSteps`). Names bound by a `for` or beforehand come before the scope.

An operand that holds a placeholder is an obstacle, except inside a template or a list, where the
placeholder is kept. Logical operators and conditionals evaluate only what decides the result, and
`try` and `can` go on with the next argument at an obstacle; but nothing goes on at something that
is pending.
-/

namespace Cartograph.Expression

/-- A step of a chain. -/
inductive Step
  | attr (name : String)
  | index (key : Value)
  | splat

/-- What a scope answers about a chain. -/
inductive Answer
  /-- The value of the first `taken` steps. -/
  | found (v : Value) (taken : Nat)
  /-- Known, but not available yet. -/
  | pending
  /-- Nothing will ever go by this name; the message says what. -/
  | missing (message : String)

/-- What root names stand for. -/
structure Scope where
  lookup : String → List Step → Answer

/-- Names bound to values, the innermost first. -/
abbrev Bindings := List (String × Value)

/-- The result of an evaluation. -/
abbrev Result (α : Type) := Except Stop α

/-- The result for an obstacle. -/
def blocked {α : Type} (o : Obstacle) : Result α := .error (.obstacle o)

/-- An outcome of a function as a result. -/
def ofOutcome {α : Type} (o : Outcome α) : Result α := o.mapError .obstacle

/-- Refuses a value that holds a placeholder. -/
def resolved (v : Value) : Result Value :=
  if v.hasUnresolved then blocked .unresolvedOperand else .ok v

/-! ### Chains -/

/-- The member of a list, or the entry of a map, under a key. -/
def indexValue (v key : Value) : Result Value :=
  match v with
  | .list items =>
    match key.asInt? with
    | none => blocked (.indexType key.typeName)
    | some i =>
      if i < 0 ∨ (items.length : Int) ≤ i then blocked (.indexRange i items.length)
      else .ok (items.getD i.toNat .null)
  | .map entries => do
    let k ← ofOutcome (keyText key)
    match Keyed.find? k entries with
    | some w => .ok w
    | none => blocked (.noKey k)
  | v => blocked (.notIndexable v.typeName)

/-- The members that a splat stands for. A single value counts as a list of one. -/
def splatItems : Value → List Value
  | .list items => items
  | .null => []
  | v => [v]

/-- Takes steps through a value. A placeholder stays what it is, whatever is taken from it. -/
def takeSteps : List Step → Value → Result Value
  | [], v => .ok v
  | _ :: _, .unresolved e => .ok (.unresolved e)
  | .attr name :: steps, v =>
    match v with
    | .map entries =>
      match Keyed.find? name entries with
      | some w => takeSteps steps w
      | none => blocked (.noAttribute name)
    | v => blocked (.notReadable name v.typeName)
  | .index key :: steps, v => do takeSteps steps (← indexValue v key)
  | .splat :: steps, v => ((splatItems v).mapM (takeSteps steps)).map .list

/-- What a chain begins with: a name, or the value of any other expression. -/
inductive Root
  | name (n : String)
  | value (v : Value)

/-- The value of a chain with concrete steps. -/
def follow (scope : Scope) (env : Bindings) (root : Root) (steps : List Step) : Result Value :=
  match root with
  | .value v => takeSteps steps v
  | .name n =>
    match Keyed.find? n env with
    | some v => takeSteps steps v
    | none =>
      match scope.lookup n steps with
      | .found v taken => takeSteps (steps.drop taken) v
      | .pending => .error .pending
      | .missing message => blocked (.missing message)

/-! ### Operators -/

/-- The value of a unary operator. -/
def applyUnary (op : Expr.UnaryOp) (v : Value) : Result Value := do
  let v ← resolved v
  match op with
  | .not =>
    match v.asBool? with
    | some b => .ok (.bool !b)
    | none => blocked (.notNegatable v.typeName)
  | .neg =>
    match v with
    | .int i => .ok (.int (Decimal.negate i))
    | v =>
      match v.asFloat? with
      | some f => .ok (ofNumber (-f))
      | none => blocked (.notNegatable v.typeName)

/-- A number that came from two operands: an integer if both were. -/
def ofArithmetic (bothInt : Bool) (f : Float) : Value :=
  if bothInt then .int (Decimal.truncate f) else ofNumber f

/-- Whether a value is an integer. -/
def isInt : Value → Bool
  | .int _ => true
  | _ => false

/-- The value of an operator on two numbers. -/
def applyNumeric (op : Expr.BinaryOp) (bothInt : Bool) (x y : Float) : Result Value :=
  match op with
  | .lt => .ok (.bool (x < y))
  | .le => .ok (.bool (x ≤ y))
  | .gt => .ok (.bool (y < x))
  | .ge => .ok (.bool (y ≤ x))
  | .add => .ok (ofArithmetic bothInt (x + y))
  | .sub => .ok (ofArithmetic bothInt (x - y))
  | .mul => .ok (ofArithmetic bothInt (x * y))
  | .div => if y == 0 then blocked .divisionByZero else .ok (ofNumber (x / y))
  | _ => if y == 0 then blocked .moduloByZero else .ok (ofNumber (Decimal.remainder x y))

/-- The value of a binary operator that needs both its operands. -/
def applyBinary (op : Expr.BinaryOp) (a b : Value) : Result Value := do
  let a ← resolved a
  let b ← resolved b
  match op with
  | .eq => .ok (.bool (sameValue a b))
  | .ne => .ok (.bool !(sameValue a b))
  | op =>
    match a.asFloat?, b.asFloat? with
    | some x, some y => applyNumeric op (isInt a && isInt b) x y
    | _, _ => blocked (.needNumbers a.typeName b.typeName)

/-- A truth value as a logical operand. -/
def logical (v : Value) : Result Bool := do
  let v ← resolved v
  match v.asBool? with
  | some b => .ok b
  | none => blocked (.logicalType v.typeName)

/-- The value of `and` or `or`; the right operand is evaluated only if it decides. -/
def applyLogical (decisive : Bool) (a : Value) (b : Unit → Result Value) : Result Value := do
  let l ← logical a
  if l = decisive then .ok (.bool l)
  else
    let r ← logical (← b ())
    .ok (.bool r)

/-! ### Collections -/

/-- The pairs of keys and values that a `for` goes through. -/
def pairsOf (v : Value) : Result (List (Value × Value)) :=
  match v with
  | .list items => .ok (items.zipIdx.map fun (v, i) => (.int (Decimal.ofSize i), v))
  | .map entries => .ok (entries.map fun (k, v) => (.text k, v))
  | .null => .ok []
  | v => blocked (.notIterable v.typeName)

/-- The bindings inside a `for`, for one pair. -/
def bindPair (keyVar : Option String) (valueVar : String) (env : Bindings) (pair : Value × Value) :
    Bindings :=
  match keyVar with
  | some k => (valueVar, pair.2) :: (k, pair.1) :: env
  | none => (valueVar, pair.2) :: env

/-- Whether the condition of a `for` keeps a member. -/
def keeps (condition : Option (Bindings → Result Value)) (env : Bindings) : Result Bool :=
  match condition with
  | none => .ok true
  | some c => do
    let v ← resolved (← c env)
    match v.asBool? with
    | some b => .ok b
    | none => blocked .filterType

/-- The members of a `for` without key. -/
def forList (condition : Option (Bindings → Result Value)) (value : Bindings → Result Value) :
    List Bindings → Result (List Value)
  | [] => .ok []
  | env :: rest => do
    if ← keeps condition env then
      let v ← value env
      let vs ← forList condition value rest
      pure (v :: vs)
    else forList condition value rest

/-- Adds an entry of a `for` with key: to the list of its key if values are grouped, else as the
    only one of its key. -/
def addEntry (grouping : Bool) (key : String) (v : Value) (entries : Attributes) :
    Result Attributes :=
  if grouping then
    match Keyed.find? key entries with
    | some (.list items) => .ok (Keyed.insert key (.list (items ++ [v])) entries)
    | _ => .ok (Keyed.insert key (.list [v]) entries)
  else if Keyed.contains key entries then blocked (.duplicateKey key)
  else .ok (Keyed.insert key v entries)

/-- The entries of a `for` with key, added to those before. -/
def forMap (condition : Option (Bindings → Result Value)) (key value : Bindings → Result Value)
    (grouping : Bool) (entries : Attributes) : List Bindings → Result Attributes
  | [] => .ok entries
  | env :: rest => do
    if ← keeps condition env then
      let v ← value env
      let k ← ofOutcome (keyText (← key env))
      let entries ← addEntry grouping k v entries
      forMap condition key value grouping entries rest
    else forMap condition key value grouping entries rest

/-! ### Calls -/

/-- The arguments of a call with the last one spread, if it is to be. -/
def spreadLast (spread : Bool) (args : List Value) : Result (List Value) :=
  if spread then
    match args.getLast? with
    | none => .ok []
    | some (.list items) => .ok (args.dropLast ++ items)
    | some v => blocked (.notExpandable v.typeName)
  else .ok args

/-- The value of a call of an ordinary function. -/
def applyCall (name : String) (spread : Bool) (args : List Value) : Result Value := do
  let args ← spreadLast spread args
  if args.any Value.hasUnresolved then blocked .unresolvedOperand
  else ofOutcome (callFunction name args)

/-- The first of some attempts without an obstacle or placeholder; `last` is the obstacle before. -/
def firstOf (last : Obstacle) : List (Unit → Result Value) → Result Value
  | [] => blocked last
  | attempt :: rest =>
    match attempt () with
    | .ok v => if v.hasUnresolved then firstOf .unresolvedArgument rest else .ok v
    | .error .pending => .error .pending
    | .error (.obstacle o) => firstOf o rest

/-- Whether one of some attempts has no obstacle and no placeholder. -/
def canAny (attempts : List (Unit → Result Value)) : Result Value :=
  match firstOf .noArguments attempts with
  | .ok _ => .ok (.bool true)
  | .error .pending => .error .pending
  | .error (.obstacle _) => .ok (.bool false)

/-- A value as a chain without steps. -/
def constant (r : Result Value) : Result (Root × List Step) := r.map fun v => (.value v, [])

/-- The value of a reduced expression. -/
def meaning (scope : Scope) (env : Bindings) (r : Result (Root × List Step)) : Result Value :=
  r.bind fun (root, steps) => follow scope env root steps

mutual

/-- Reduces an expression to a root and concrete steps: a chain to its name and steps, anything else
    to its value. -/
def reduce (scope : Scope) : Expr → Bindings → Result (Root × List Step)
  | .root name, _ => .ok (.name name, [])
  | .attr e name, env => do
    let (root, steps) ← reduce scope e env
    pure (root, steps ++ [.attr name])
  | .index e key, env => do
    let (root, steps) ← reduce scope e env
    let k ← resolved (← meaning scope env (reduce scope key env))
    pure (root, steps ++ [.index k])
  | .splat e rest, env => do
    let (root, steps) ← reduce scope e env
    let more ← evalSteps scope rest env
    pure (root, steps ++ .splat :: more)
  | .literal v, _ => constant (.ok v)
  | .template pieces, env => constant ((evalPieces scope pieces env).map .text)
  | .list items, env => constant ((evalList scope items env).map .list)
  | .object entries, env => constant ((evalEntries scope entries [] env).map .map)
  | .unary op e, env =>
    constant ((meaning scope env (reduce scope e env)).bind (applyUnary op))
  | .binary .and a b, env =>
    constant ((meaning scope env (reduce scope a env)).bind fun v =>
      applyLogical false v fun _ => meaning scope env (reduce scope b env))
  | .binary .or a b, env =>
    constant ((meaning scope env (reduce scope a env)).bind fun v =>
      applyLogical true v fun _ => meaning scope env (reduce scope b env))
  | .binary op a b, env => constant do
    let x ← meaning scope env (reduce scope a env)
    let y ← meaning scope env (reduce scope b env)
    applyBinary op x y
  | .conditional c a b, env => constant do
    let v ← resolved (← meaning scope env (reduce scope c env))
    match v.asBool? with
    | some true => meaning scope env (reduce scope a env)
    | some false => meaning scope env (reduce scope b env)
    | none => blocked (.conditionType v.typeName)
  | .call name args spread, env => constant <|
    if name = "try" then firstOf .noArguments (attempts scope args env)
    else if name = "can" then canAny (attempts scope args env)
    else (evalList scope args env).bind (applyCall name spread)
  | .forEach keyVar valueVar collection key value condition grouping, env => constant do
    let v ← resolved (← meaning scope env (reduce scope collection env))
    let envs := (← pairsOf v).map (bindPair keyVar valueVar env)
    let keep := evalOption scope condition
    let body := fun env => meaning scope env (reduce scope value env)
    match evalOption scope key with
    | none => (forList keep body envs).map .list
    | some k => (forMap keep k body grouping [] envs).map .map

/-- The values of several expressions. -/
def evalList (scope : Scope) : List Expr → Bindings → Result (List Value)
  | [], _ => .ok []
  | e :: es, env => do
    let v ← meaning scope env (reduce scope e env)
    let vs ← evalList scope es env
    pure (v :: vs)

/-- The entries of an object, added to those before; of several with one key the last counts. -/
def evalEntries (scope : Scope) : List (Expr × Expr) → Attributes → Bindings → Result Attributes
  | [], done, _ => .ok done
  | (k, e) :: rest, done, env => do
    let key ← ofOutcome (keyText (← meaning scope env (reduce scope k env)))
    let v ← meaning scope env (reduce scope e env)
    evalEntries scope rest (Keyed.insert key v done) env

/-- The text of a template. -/
def evalPieces (scope : Scope) : List (Expr.Piece Expr) → Bindings → Result String
  | [], _ => .ok ""
  | .literal s :: ps, env => do
    let t ← evalPieces scope ps env
    pure (s ++ t)
  | .interpolation e :: ps, env => do
    let v ← meaning scope env (reduce scope e env)
    let t ← evalPieces scope ps env
    pure (v.toText ++ t)

/-- The concrete steps behind a splat. -/
def evalSteps (scope : Scope) : List (Expr.Traversal Expr) → Bindings → Result (List Step)
  | [], _ => .ok []
  | .attr name :: rest, env => do
    let more ← evalSteps scope rest env
    pure (.attr name :: more)
  | .index e :: rest, env => do
    let k ← meaning scope env (reduce scope e env)
    let more ← evalSteps scope rest env
    pure (.index k :: more)

/-- The evaluation of an expression that may be left out. -/
def evalOption (scope : Scope) : Option Expr → Option (Bindings → Result Value)
  | none => none
  | some e => some fun env => meaning scope env (reduce scope e env)

/-- The evaluations of several expressions, none of which has begun. -/
def attempts (scope : Scope) : List Expr → Bindings → List (Unit → Result Value)
  | [], _ => []
  | e :: es, env =>
    (fun _ => meaning scope env (reduce scope e env)) :: attempts scope es env

end

/-- The value of an expression. -/
def eval (scope : Scope) (e : Expr) (env : Bindings) : Result Value :=
  meaning scope env (reduce scope e env)

end Cartograph.Expression
