import Cartograph.Value

/-!
# Tokens of expressions

The smallest units of an expression: names, numbers, quoted texts and marks. A quoted text is a list
of parts, literal ones and interpolations, and an interpolation holds the tokens of its expression.

A malformed expression is refused with a fault: its cause, and the place as an offset in bytes
(`Fault`).
-/

namespace Cartograph.Expression

/-- Operators, brackets and other marks. -/
inductive Mark
  | ellipsis
  | equal
  | notEqual
  | lessOrEqual
  | greaterOrEqual
  | and
  | or
  | arrow
  | dot
  | comma
  | leftBracket
  | rightBracket
  | leftParen
  | rightParen
  | leftBrace
  | rightBrace
  | colon
  | question
  | plus
  | minus
  | star
  | slash
  | percent
  | less
  | greater
  | not
  | assign
  deriving Repr, DecidableEq

/-- The text of a mark. -/
def Mark.text : Mark → String
  | ellipsis => "..."
  | equal => "=="
  | notEqual => "!="
  | lessOrEqual => "<="
  | greaterOrEqual => ">="
  | and => "&&"
  | or => "||"
  | arrow => "=>"
  | dot => "."
  | comma => ","
  | leftBracket => "["
  | rightBracket => "]"
  | leftParen => "("
  | rightParen => ")"
  | leftBrace => "\x7b"
  | rightBrace => "\x7d"
  | colon => ":"
  | question => "?"
  | plus => "+"
  | minus => "-"
  | star => "*"
  | slash => "/"
  | percent => "%"
  | less => "<"
  | greater => ">"
  | not => "!"
  | assign => "="

/-- All marks, longer ones before those they begin with. -/
def Mark.all : List Mark :=
  [.ellipsis, .equal, .notEqual, .lessOrEqual, .greaterOrEqual, .and, .or, .arrow, .dot, .comma,
    .leftBracket, .rightBracket, .leftParen, .rightParen, .leftBrace, .rightBrace, .colon,
    .question, .plus, .minus, .star, .slash, .percent, .less, .greater, .not, .assign]

/-- Whether a mark opens a bracket. -/
def Mark.opens (m : Mark) : Bool := m == .leftBrace || m == .leftBracket || m == .leftParen

/-- Whether a mark closes a bracket. -/
def Mark.closes (m : Mark) : Bool := m == .rightBrace || m == .rightBracket || m == .rightParen

/-- A number as written: an integer if it has neither point nor exponent and fits. -/
inductive Literal
  | int (n : Nat) {h : (n : Int) ≤ Decimal.maxInt}
  | float (f : Float)

/-- The value of a number. -/
def Literal.value : Literal → Value
  | int n => .int n
  | float f => .float f

mutual

/-- A token. -/
inductive Token
  | ident (name : String)
  | number (n : Literal)
  | text (parts : List Part)
  | mark (m : Mark)

/-- A part of a quoted text or template. An interpolation keeps the text of its expression. -/
inductive Part
  | literal (s : String)
  | interpolation (tokens : List Spanned) (source : String)

/-- A token with its offset. -/
inductive Spanned
  | mk (token : Token) (offset : Nat)

end

instance : Inhabited Token := ⟨.ident ""⟩

/-- The token without its offset. -/
def Spanned.token : Spanned → Token
  | mk t _ => t

/-- The offset of a token. -/
def Spanned.offset : Spanned → Nat
  | mk _ n => n

mutual

/-- The number of tokens in a token, itself included. -/
def Token.weight : Token → Nat
  | .text parts => Part.weights parts + 1
  | .ident _ => 1
  | .number _ => 1
  | .mark _ => 1

/-- The number of tokens in parts; each part counts as one more. -/
def Part.weights : List Part → Nat
  | [] => 0
  | p :: ps => p.weight + Part.weights ps + 1

/-- The number of tokens in a part. -/
def Part.weight : Part → Nat
  | .literal _ => 0
  | .interpolation tokens _ => Spanned.weights tokens

/-- The number of tokens in a list. -/
def Spanned.weights : List Spanned → Nat
  | [] => 0
  | s :: rest => s.weight + Spanned.weights rest

/-- The number of tokens in a token with its offset. -/
def Spanned.weight : Spanned → Nat
  | .mk t _ => t.weight

end

/-! ### Tokens in messages -/

/-- Numbers in messages about tokens: with an exponent from `1e16` on and below `1e-4`. -/
def messageLayout : Decimal.Layout := ⟨some (-4, 15), true, false, "inf", "NaN"⟩

/-- A number in a message. -/
def Literal.describe : Literal → String
  | int n => "Int(" ++ toString n ++ ")"
  | float f => "Float(" ++ messageLayout.render f ++ ")"

mutual

/-- A token in a message. -/
def Token.describe : Token → String
  | .ident name => "Ident(" ++ Text.quote name ++ ")"
  | .number n => "Number(" ++ n.describe ++ ")"
  | .text parts => "Str([" ++ ", ".intercalate (Part.describeAll parts) ++ "])"
  | .mark m => "Punct(" ++ Text.quote m.text ++ ")"

def Part.describeAll : List Part → List String
  | [] => []
  | p :: ps => p.describe :: Part.describeAll ps

def Part.describe : Part → String
  | .literal s => "Lit(" ++ Text.quote s ++ ")"
  | .interpolation tokens source =>
    "Interp \x7b tokens: [" ++ ", ".intercalate (Spanned.describeAll tokens) ++ "], text: "
      ++ Text.quote source ++ " \x7d"

def Spanned.describeAll : List Spanned → List String
  | [] => []
  | s :: rest => s.describe :: Spanned.describeAll rest

def Spanned.describe : Spanned → String
  | .mk t n => "Spanned \x7b token: " ++ t.describe ++ ", offset: " ++ toString n ++ " \x7d"

end

/-! ### Faults -/

/-- Why an expression or template is malformed. -/
inductive Cause
  | unterminatedInterpolation
  | unterminatedComment
  | unterminatedText
  | unexpectedCharacter (c : Char)
  | invalidEscape
  | invalidCodePoint
  | expected (what : String)
  | unexpectedEnd
  | unexpected (t : Token)
  | trailing (t : Token)

/-- The wording of a cause. -/
def Cause.message : Cause → String
  | unterminatedInterpolation => "unterminated interpolation"
  | unterminatedComment => "unterminated comment"
  | unterminatedText => "unterminated string"
  | unexpectedCharacter c => "unexpected character '" ++ c.toString ++ "'"
  | invalidEscape => "invalid escape sequence"
  | invalidCodePoint => "invalid unicode escape"
  | expected what => "expected " ++ what
  | unexpectedEnd => "unexpected end of expression"
  | unexpected t => "unexpected " ++ t.describe
  | trailing t => "unexpected trailing " ++ t.describe

/-- What is wrong with an expression, and where. -/
structure Fault where
  cause : Cause
  offset : Nat

/-- The wording of a fault. -/
def Fault.message (f : Fault) : String := f.cause.message ++ " at offset " ++ toString f.offset

end Cartograph.Expression
