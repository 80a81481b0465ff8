import Cartograph.Expression
import Cartograph.Expression.Lexer

/-!
# From tokens to expressions

From loose to tight an expression is a conditional, the binary operators in six levels (`Level`),
the unary operators, and steps on a term: attributes, indices and splats. Binary operators of one
level group from the left.

A template that is one interpolation is its expression, so that its value keeps its type; a quoted
text always is text (`quotedTemplate`).

The readers take the tokens left and give the tokens behind what they have read. Their first
argument bounds the depth of calls; the number of tokens, nested ones included, decides how much
is enough (`depthFor`).
-/

namespace Cartograph.Expression

/-- The tokens left, and the offset that faults behind the last token name. -/
structure Tokens where
  rest : List Spanned
  finish : Nat

namespace Tokens

/-- The next token. -/
def peek? (ts : Tokens) : Option Token := ts.rest.head?.map Spanned.token

/-- The offset of the next token. -/
def offset (ts : Tokens) : Nat :=
  match ts.rest with
  | [] => ts.finish
  | s :: _ => s.offset

/-- The tokens behind the next one. -/
def next (ts : Tokens) : Tokens := { ts with rest := ts.rest.tail }

/-- The mark that is next, if it is one. -/
def mark? (ts : Tokens) : Option Mark :=
  match ts.peek? with
  | some (.mark m) => some m
  | _ => none

/-- Whether a mark is next. -/
def sees (ts : Tokens) (m : Mark) : Bool := ts.mark? == some m

/-- The name that is next, if it is one. -/
def ident? (ts : Tokens) : Option String :=
  match ts.peek? with
  | some (.ident name) => some name
  | _ => none

/-- A fault at the next token. -/
def fault {α : Type} (ts : Tokens) (c : Cause) : Except Fault α := .error ⟨c, ts.offset⟩

/-- Goes past a mark that has to be next. -/
def expect (ts : Tokens) (m : Mark) : Except Fault Tokens :=
  if ts.sees m then .ok ts.next else ts.fault (.expected ("'" ++ m.text ++ "'"))

/-- Goes past a name that has to be next. -/
def expectIdent (ts : Tokens) : Except Fault (String × Tokens) :=
  match ts.ident? with
  | some name => .ok (name, ts.next)
  | none => ts.fault (.expected "identifier")

/-- Refuses tokens that are left over. -/
def expectEnd (ts : Tokens) : Except Fault Unit :=
  match ts.peek? with
  | none => .ok ()
  | some t => ts.fault (.trailing t)

end Tokens

/-- The operators of each level of binary operators, the loosest first. -/
def levels : List (List (Mark × Expr.BinaryOp)) :=
  [[(.or, .or)],
    [(.and, .and)],
    [(.equal, .eq), (.notEqual, .ne)],
    [(.lessOrEqual, .le), (.greaterOrEqual, .ge), (.less, .lt), (.greater, .gt)],
    [(.plus, .add), (.minus, .sub)],
    [(.star, .mul), (.slash, .div), (.percent, .mod)]]

/-- The operator of a level that is next. -/
def Tokens.operator? (ts : Tokens) (ops : List (Mark × Expr.BinaryOp)) : Option Expr.BinaryOp :=
  ts.mark?.bind fun m => (ops.find? (·.1 == m)).map (·.2)

/-- A number stands for itself. -/
theorem Literal.isLiteral_value (k : Literal) : k.value.isLiteral = true := by
  cases k with
  | @int n fits =>
    have low : Decimal.minInt ≤ n := by
      unfold Decimal.minInt
      omega
    simp [value, Value.isLiteral, low, fits]
  | float f => rfl

/-- A number as an expression. -/
def Literal.expr (k : Literal) : Expr := @Expr.literal k.value k.isLiteral_value

/-- A text as an expression. -/
def textExpr (s : String) : Expr := @Expr.literal (.text s) rfl

/-- The expression of the pieces of a template. -/
def joinPieces : List (Expr.Piece Expr) → Expr
  | [.interpolation e] => e
  | [.literal s] => textExpr s
  | ps => .template ps

/-- The expression of a quoted text, which always gives text. -/
def quotedTemplate (e : Expr) : Expr :=
  match e with
  | .literal (.text s) => textExpr s
  | .template ps => .template ps
  | e => .template [.interpolation e]

mutual

/-- An expression, a conditional included. -/
def expression : Nat → Tokens → Except Fault (Expr × Tokens)
  | 0, ts => ts.fault .unexpectedEnd
  | n + 1, ts => do
    let (c, ts) ← binary n levels ts
    if ts.sees .question then
      let (a, ts) ← expression n ts.next
      let ts ← ts.expect .colon
      let (b, ts) ← expression n ts
      pure (.conditional c a b, ts)
    else pure (c, ts)

/-- Operands of the given levels of binary operators. -/
def binary : Nat → List (List (Mark × Expr.BinaryOp)) → Tokens → Except Fault (Expr × Tokens)
  | 0, _, ts => ts.fault .unexpectedEnd
  | n + 1, [], ts => unary n ts
  | n + 1, ops :: tighter, ts => do
    let (a, ts) ← binary n tighter ts
    binaryRest n ops tighter a ts

/-- The operators of a level behind an operand, with their right operands. -/
def binaryRest : Nat → List (Mark × Expr.BinaryOp) → List (List (Mark × Expr.BinaryOp)) → Expr →
    Tokens → Except Fault (Expr × Tokens)
  | 0, _, _, _, ts => ts.fault .unexpectedEnd
  | n + 1, ops, tighter, a, ts =>
    match ts.operator? ops with
    | none => .ok (a, ts)
    | some op => do
      let (b, ts) ← binary n tighter ts.next
      binaryRest n ops tighter (.binary op a b) ts

/-- A term behind unary operators. -/
def unary : Nat → Tokens → Except Fault (Expr × Tokens)
  | 0, ts => ts.fault .unexpectedEnd
  | n + 1, ts =>
    if ts.sees .not then do
      let (e, ts) ← unary n ts.next
      pure (.unary .not e, ts)
    else if ts.sees .minus then do
      let (e, ts) ← unary n ts.next
      pure (.unary .neg e, ts)
    else do
      let (e, ts) ← term n ts
      steps n e ts

/-- The steps behind a term. -/
def steps : Nat → Expr → Tokens → Except Fault (Expr × Tokens)
  | 0, _, ts => ts.fault .unexpectedEnd
  | n + 1, e, ts =>
    if ts.sees .dot then
      if ts.next.sees .star then do
        let (ss, ts) ← splatSteps n ts.next.next
        steps n (.splat e ss) ts
      else
        match ts.next.peek? with
        | some (.ident name) => steps n (.attr e name) ts.next.next
        | some (.number k) => steps n (.index e k.expr) ts.next.next
        | _ => ts.next.fault (.expected "attribute name")
    else if ts.sees .leftBracket then
      if ts.next.sees .star then do
        let ts ← ts.next.next.expect .rightBracket
        let (ss, ts) ← splatSteps n ts
        steps n (.splat e ss) ts
      else do
        let (key, ts) ← expression n ts.next
        let ts ← ts.expect .rightBracket
        steps n (.index e key) ts
    else .ok (e, ts)

/-- The steps behind a splat that every member takes. -/
def splatSteps : Nat → Tokens → Except Fault (List (Expr.Traversal Expr) × Tokens)
  | 0, ts => ts.fault .unexpectedEnd
  | n + 1, ts =>
    match ts.sees .dot, ts.next.ident? with
    | true, some name => do
      let (ss, ts) ← splatSteps n ts.next.next
      pure (.attr name :: ss, ts)
    | _, _ =>
      if ts.sees .leftBracket && !ts.next.sees .star then do
        let (key, ts) ← expression n ts.next
        let ts ← ts.expect .rightBracket
        let (ss, ts) ← splatSteps n ts
        pure (.index key :: ss, ts)
      else .ok ([], ts)

/-- A term: a number, text, name, call, or something in brackets. -/
def term : Nat → Tokens → Except Fault (Expr × Tokens)
  | 0, ts => ts.fault .unexpectedEnd
  | n + 1, ts =>
    match ts.peek? with
    | none => ts.fault .unexpectedEnd
    | some (.number k) => .ok (k.expr, ts.next)
    | some (.text ps) => do
      let pieces ← templatePieces n ts.finish ps
      pure (quotedTemplate (joinPieces pieces), ts.next)
    | some (.ident name) =>
      if name = "true" then .ok (@Expr.literal (.bool true) rfl, ts.next)
      else if name = "false" then .ok (@Expr.literal (.bool false) rfl, ts.next)
      else if name = "null" then .ok (@Expr.literal .null rfl, ts.next)
      else if ts.next.sees .leftParen then do
        let (args, spread, ts) ← arguments n ts.next.next
        pure (.call name args spread, ts)
      else .ok (.root name, ts.next)
    | some (.mark .leftParen) => do
      let (e, ts) ← expression n ts.next
      let ts ← ts.expect .rightParen
      pure (e, ts)
    | some (.mark .leftBracket) =>
      if ts.next.ident? = some "for" then forEach n false ts.next.next
      else do
        let (es, ts) ← items n ts.next
        pure (.list es, ts)
    | some (.mark .leftBrace) =>
      if ts.next.ident? = some "for" then forEach n true ts.next.next
      else do
        let (es, ts) ← entries n ts.next
        pure (.object es, ts)
    | some t => ts.fault (.unexpected t)

/-- The members of a list up to its closing bracket. -/
def items : Nat → Tokens → Except Fault (List Expr × Tokens)
  | 0, ts => ts.fault .unexpectedEnd
  | n + 1, ts =>
    if ts.sees .rightBracket then .ok ([], ts.next)
    else do
      let (e, ts) ← expression n ts
      if ts.sees .comma || ts.sees .rightBracket then
        let (es, ts) ← items n (if ts.sees .comma then ts.next else ts)
        pure (e :: es, ts)
      else ts.fault (.expected "',' or ']'")

/-- The arguments of a call up to its closing parenthesis, and whether the last one is spread. -/
def arguments : Nat → Tokens → Except Fault (List Expr × Bool × Tokens)
  | 0, ts => ts.fault .unexpectedEnd
  | n + 1, ts =>
    if ts.sees .rightParen then .ok ([], false, ts.next)
    else do
      let (e, ts) ← expression n ts
      if ts.sees .ellipsis then
        let ts ← ts.next.expect .rightParen
        pure ([e], true, ts)
      else if ts.sees .comma || ts.sees .rightParen then
        let (es, spread, ts) ← arguments n (if ts.sees .comma then ts.next else ts)
        pure (e :: es, spread, ts)
      else ts.fault (.expected "',' or ')'")

/-- The entries of an object up to its closing brace. A name before `=` or `:` is a key as it is. -/
def entries : Nat → Tokens → Except Fault (List (Expr × Expr) × Tokens)
  | 0, ts => ts.fault .unexpectedEnd
  | n + 1, ts =>
    if ts.sees .rightBrace then .ok ([], ts.next)
    else do
      let (key, ts) ←
        match ts.ident?, ts.next.sees .assign || ts.next.sees .colon with
        | some name, true => pure (textExpr name, ts.next)
        | _, _ => expression n ts
      let ts ← if ts.sees .assign then pure ts.next else ts.expect .colon
      let (value, ts) ← expression n ts
      let (es, ts) ← entries n (if ts.sees .comma then ts.next else ts)
      pure ((key, value) :: es, ts)

/-- A `for`, behind its opening bracket and the word. -/
def forEach : Nat → Bool → Tokens → Except Fault (Expr × Tokens)
  | 0, _, ts => ts.fault .unexpectedEnd
  | n + 1, isMap, ts => do
    let (first, ts) ← ts.expectIdent
    let (keyVar, valueVar, ts) ←
      if ts.sees .comma then do
        let (second, ts) ← ts.next.expectIdent
        pure (some first, second, ts)
      else pure (none, first, ts)
    if ts.ident? ≠ some "in" then ts.fault (.expected "'in'")
    else
      let (collection, ts) ← expression n ts.next
      let ts ← ts.expect .colon
      let (key, ts) ←
        if isMap then do
          let (k, ts) ← expression n ts
          let ts ← ts.expect .arrow
          pure (some k, ts)
        else pure (none, ts)
      let (value, ts) ← expression n ts
      let (grouping, ts) :=
        if isMap && ts.sees .ellipsis then (true, ts.next) else (false, ts)
      let (condition, ts) ←
        if ts.ident? = some "if" then do
          let (c, ts) ← expression n ts.next
          pure (some c, ts)
        else pure (none, ts)
      let ts ← ts.expect (if isMap then .rightBrace else .rightBracket)
      pure (.forEach keyVar valueVar collection key value condition grouping, ts)

/-- The pieces of a template. An interpolation ends right behind its last token; an empty one where
    the text around it ends. -/
def templatePieces : Nat → Nat → List Part → Except Fault (List (Expr.Piece Expr))
  | 0, finish, _ => .error ⟨.unexpectedEnd, finish⟩
  | _ + 1, _, [] => .ok []
  | n + 1, finish, .literal s :: ps => do
    let rest ← templatePieces n finish ps
    pure (.literal s :: rest)
  | n + 1, finish, .interpolation ts _ :: ps => do
    let finish' := match ts.getLast? with
      | some last => last.offset + 1
      | none => finish
    let (e, left) ← expression n ⟨ts, finish'⟩
    left.expectEnd
    let rest ← templatePieces n finish ps
    pure (.interpolation e :: rest)

end

/-- A bound on the depth of calls for so many tokens. -/
def depthFor (weight : Nat) : Nat := 16 * weight + 32

/-- The expression that a text holds. -/
def parseExpression (s : String) : Except Fault Expr := do
  let ts ← tokenize s
  let (e, left) ← expression (depthFor (Spanned.weights ts)) ⟨ts, s.utf8ByteSize⟩
  left.expectEnd
  pure e

/-- The expression of a template. -/
def parseTemplate (s : String) : Except Fault Expr := do
  let ps ← tokenizeTemplate s
  let pieces ← templatePieces (depthFor (Part.weights ps)) s.utf8ByteSize ps
  pure (joinPieces pieces)

end Cartograph.Expression
