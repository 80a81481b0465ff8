import Cartograph.Expression.Token
import Cartograph.Text.Letter

/-!
# Cutting expressions and templates into tokens

An expression is cut into tokens between blanks and comments (`tokenize`). A template is text in
which `$` with a braced expression is an interpolation, and a doubled `$` before a brace stands
for a single one (`tokenizeTemplate`). Quoted texts in expressions are templates with escapes, so
the two readers call each other; both consume what they read, which bounds them.

The readers carry the rest of the text together with the offset of its beginning (`Place`).
-/

namespace Cartograph.Expression

/-- The rest of a text, and the number of bytes before it. -/
structure Place where
  rest : List Char
  offset : Nat

/-- The number of bytes of a list of characters. -/
def bytes : List Char → Nat
  | [] => 0
  | c :: cs => c.utf8Size + bytes cs

/-- The beginning of a text. -/
def Place.start (s : String) : Place := ⟨s.toList, 0⟩

/-- The place behind the first `n` characters. -/
def Place.advance (p : Place) (n : Nat) : Place :=
  ⟨p.rest.drop n, p.offset + bytes (p.rest.take n)⟩

/-- The place behind the longest run of characters of a kind. -/
def Place.skip (p : Place) (test : Char → Bool) : Place :=
  p.advance (p.rest.takeWhile test).length

/-- A fault at a place. -/
def Place.fault {α : Type} (p : Place) (c : Cause) : Except Fault α := .error ⟨c, p.offset⟩

/-! ### Blanks and comments -/

/-- The length of a comment between `/*` and `*/` whose beginning has been read, with its end. -/
def commentLength? : List Char → Option Nat
  | '*' :: '/' :: _ => some 2
  | _ :: rest => (commentLength? rest).map (· + 1)
  | [] => none

/-- Whether a comment that goes to the end of the line begins here. -/
def lineCommentNext : List Char → Bool
  | '#' :: _ => true
  | '/' :: '/' :: _ => true
  | _ => false

/-- Goes past blanks and comments. -/
def skipTrivia (p : Place) : Except Fault Place :=
  match _h : p.rest with
  | [] => .ok p
  | c :: rest =>
    if Text.isBlank c then skipTrivia ⟨rest, p.offset + c.utf8Size⟩
    else if lineCommentNext p.rest then
      let next := p.skip (· ≠ '\n')
      if _h : next.rest.length < p.rest.length then skipTrivia next else .ok next
    else if p.rest.take 2 = ['/', '*'] then
      match commentLength? (p.rest.drop 2) with
      | none => p.fault .unterminatedComment
      | some n =>
        let next := p.advance (n + 2)
        if _h : next.rest.length < p.rest.length then skipTrivia next else .ok next
    else .ok p
termination_by p.rest.length
decreasing_by
  · simp_all
  · assumption
  · assumption

/-! ### Names, numbers and marks -/

/-- A character that a name may begin with. -/
def isNameStart (c : Char) : Bool := Text.isAlphabetic c || c == '_'

/-- A character that a name may go on with. -/
def isNamePart (c : Char) : Bool := Text.isAlphanumeric c || c == '_' || c == '-'

/-- The length of the part behind the point of a number, with the point: it needs a digit. -/
def fractionLength : List Char → Nat
  | '.' :: rest =>
    match rest.takeWhile Char.isDigit with
    | [] => 0
    | ds => ds.length + 1
  | _ => 0

/-- The length of the exponent part of a number: it needs a digit. -/
def exponentLength : List Char → Nat
  | c :: rest =>
    if c = 'e' ∨ c = 'E' then
      let (sign, digits) := match rest with
        | '+' :: more => (1, more)
        | '-' :: more => (1, more)
        | more => (0, more)
      match digits.takeWhile Char.isDigit with
      | [] => 0
      | ds => ds.length + sign + 1
    else 0
  | [] => 0

/-- The length of the number that begins with a digit here. -/
def numberLength (cs : List Char) : Nat :=
  let whole := (cs.takeWhile Char.isDigit).length
  let fraction := fractionLength (cs.drop whole)
  whole + fraction + exponentLength (cs.drop (whole + fraction))

/-- The number that a text stands for. -/
def literalOf (cs : List Char) : Literal :=
  let n := Decimal.digitsValue cs
  if h : cs.all Char.isDigit ∧ (n : Int) ≤ Decimal.maxInt then @Literal.int n h.2
  else .float ((Decimal.readFloat? (String.ofList cs)).getD 0)

/-- The mark that a text begins with. -/
def mark? (cs : List Char) : Option Mark :=
  Mark.all.find? fun m => m.text.toList.isPrefixOf cs

/-- The name, number or mark that begins here, and its length. -/
def lexeme? (cs : List Char) : Option (Token × Nat) :=
  match cs with
  | [] => none
  | c :: _ =>
    if c.isDigit then
      let n := numberLength cs
      some (.number (literalOf (cs.take n)), n)
    else if isNameStart c then
      let name := cs.takeWhile isNamePart
      some (.ident (String.ofList name), name.length)
    else (mark? cs).map fun m => (.mark m, m.text.length)

/-- How many brackets are open behind a token. -/
def depthBehind (depth : Nat) : Token → Nat
  | .mark m => if m.opens then depth + 1 else if m.closes then depth - 1 else depth
  | _ => depth

/-! ### Quoted texts and templates -/

/-- The code point of four digits to base 16, of which the first may be a plus sign. -/
def codePoint? (cs : List Char) : Option Char :=
  let quad := cs.take 4
  let digits := match quad with
    | '+' :: ds => ds
    | ds => ds
  if quad.length = 4 then
    (Document.natOfDigits? 16 digits).bind fun n =>
      if n.isValidChar then some (Char.ofNat n) else none
  else none

/-- The character of an escape of which the backslash has been read, and its length. -/
def escape (p : Place) : Except Fault (Char × Nat) :=
  match p.rest with
  | 'n' :: _ => .ok ('\n', 1)
  | 't' :: _ => .ok ('\t', 1)
  | 'r' :: _ => .ok ('\r', 1)
  | '"' :: _ => .ok ('"', 1)
  | '\\' :: _ => .ok ('\\', 1)
  | 'u' :: rest =>
    match codePoint? rest with
    | some c => .ok (c, 5)
    | none => p.fault .invalidCodePoint
  | _ => p.fault .invalidEscape

/-- The parts of a template, given the characters read so far of a literal part (in reverse) before
    the other parts. The last part is literal if it is not empty or the only one. -/
def literalPart (pending : List Char) : List Part :=
  if pending.isEmpty then [] else [.literal (String.ofList pending.reverse)]

/-- How a template is read: as the text in quotation marks that begins at an offset, or on its own.
    -/
inductive Frame
  | quoted (start : Nat)
  | bare
  deriving DecidableEq

mutual

/-- The tokens from a place on: up to the end of the text or, inside an interpolation (`closing`),
    up to and including the brace that closes it. -/
def tokens (closing : Bool) (depth : Nat) (p : Place) : Except Fault (List Spanned × Place) :=
  match skipTrivia p with
  | .error f => .error f
  | .ok q =>
    match q.rest with
    | [] => if closing then q.fault .unterminatedInterpolation else .ok ([], q)
    | c :: _ =>
      if closing && depth == 0 && c == '\x7d' then .ok ([], q.advance 1)
      else if c = '"' then
        if _h : (q.advance 1).rest.length < p.rest.length then
          match parts (.quoted q.offset) [] false (q.advance 1) with
          | .error f => .error f
          | .ok (ps, r) =>
            if _h : r.rest.length < p.rest.length then
              match tokens closing depth r with
              | .error f => .error f
              | .ok (ts, last) => .ok (.mk (.text ps) q.offset :: ts, last)
            else q.fault .unterminatedText
        else q.fault .unterminatedText
      else
        match lexeme? q.rest with
        | none => q.fault (.unexpectedCharacter c)
        | some (t, n) =>
          if _h : (q.advance n).rest.length < p.rest.length then
            match tokens closing (depthBehind depth t) (q.advance n) with
            | .error f => .error f
            | .ok (ts, last) => .ok (.mk t q.offset :: ts, last)
          else q.fault (.unexpectedCharacter c)
termination_by p.rest.length

/-- The parts from a place on. The characters `pending` (in reverse) of a literal part have been
    read, and other parts before it if `started`. -/
def parts (frame : Frame) (pending : List Char) (started : Bool) (p : Place) :
    Except Fault (List Part × Place) :=
  let finish (q : Place) : Except Fault (List Part × Place) :=
    .ok (if pending.isEmpty && !started then [.literal ""] else literalPart pending, q)
  if p.rest.take 3 = ['$', '$', '\x7b'] then
    if _h : (p.advance 3).rest.length < p.rest.length then
      parts frame ('\x7b' :: '$' :: pending) started (p.advance 3)
    else finish p
  else if p.rest.take 2 = ['$', '\x7b'] then
    let inner := p.advance 2
    if _h : inner.rest.length < p.rest.length then
      match tokens true 0 inner with
      | .error f => .error f
      | .ok (ts, r) =>
        let source := inner.rest.take (inner.rest.length - r.rest.length - 1)
        if _h : r.rest.length < p.rest.length then
          match parts frame [] true r with
          | .error f => .error f
          | .ok (ps, last) =>
            .ok (literalPart pending
              ++ .interpolation ts (String.ofList (Text.trimChars source)) :: ps, last)
        else finish p
    else finish p
  else
    match p.rest with
    | [] =>
      match frame with
      | .quoted start => .error ⟨.unterminatedText, start⟩
      | .bare => finish p
    | c :: rest =>
      let next : Place := ⟨rest, p.offset + c.utf8Size⟩
      if _h : next.rest.length < p.rest.length then
        if frame = .bare then parts frame (c :: pending) started next
        else if c = '"' then finish next
        else if c = '\\' then
          match escape next with
          | .error f => .error f
          | .ok (d, n) =>
            if _h : (next.advance n).rest.length < p.rest.length then
              parts frame (d :: pending) started (next.advance n)
            else finish p
        else parts frame (c :: pending) started next
      else finish p
termination_by p.rest.length

end

/-- The tokens of an expression. -/
def tokenize (s : String) : Except Fault (List Spanned) :=
  (tokens false 0 (Place.start s)).map (·.1)

/-- The parts of a template. -/
def tokenizeTemplate (s : String) : Except Fault (List Part) :=
  (parts .bare [] false (Place.start s)).map (·.1)

end Cartograph.Expression
