import Cartograph.Document

/-!
# Reading JSON

A text is cut into tokens (`tokenize`), and the tokens are assembled by a machine that keeps the
containers still open on a stack (`step`). Both refuse what is not JSON: a needless zero, a bare
control character, half of a surrogate pair, a comma too many, anything after the document, and a
nesting beyond `depthLimit`.

A whole number that fits into 64 bits is an integer. Any other number is read in two roundings: the
leading digits that fit into 64 bits are rounded to a float, which is then scaled by a power of ten
(`scaled?`).
-/

namespace Cartograph.Json

open Decimal

/-- The smallest unit of a JSON text. -/
inductive Token
  | scalar (d : Document)
  | openList
  | closeList
  | openFields
  | closeFields
  | comma
  | colon
  deriving Inhabited

/-! ### Numbers -/

/-- The greatest power of ten that scales a number in one step. -/
def greatestPower : Nat := 308

/-- Scales down in steps of the greatest power of ten, then by the rest. -/
def scaledDown (f : Float) (places : Nat) : Float :=
  if places ≤ greatestPower then f / ofDecimal false 1 places
  else if f == 0 then f
  else scaledDown (f / ofDecimal false 1 greatestPower) (places - greatestPower)
termination_by places
decreasing_by simp_all [greatestPower]; omega

/-- A significand times a power of ten; `none` if it is too great. -/
def scaled? (significand : Nat) (exponent : Int) : Option Float :=
  let f := ofInt significand
  if exponent < 0 then some (scaledDown f exponent.natAbs)
  else if exponent.natAbs ≤ greatestPower then
    let g := f * ofDecimal false 1 exponent
    if g.isFinite then some g else none
  else if significand = 0 then some f else none

/-- The digits that fit into 64 bits, as a number, and how many digits follow them. -/
def significand (ds : List Char) : Nat → Nat × Nat :=
  match ds with
  | [] => fun n => (n, 0)
  | d :: rest => fun n =>
    let m := 10 * n + (d.toNat - '0'.toNat)
    if m < Nat.pow 2 64 then significand rest m else (n, rest.length + 1)

/-- The number with the given digits before and after the point and the given exponent. Digits that
    do not fit any more count only as places before the point. -/
def decimal? (negative : Bool) (whole places : List Char) (exponent : Int) : Option Float :=
  let (n, left) := significand whole 0
  let (m, dropped) := if left = 0 then significand places n else (n, places.length)
  let taken := places.length - dropped
  (scaled? m (left - taken + exponent)).map fun f => if negative then -f else f

/-- A whole number: an integer if it fits. Minus zero is no integer. -/
def whole? (negative : Bool) (digits : List Char) : Option Document :=
  let n := digitsValue digits
  if negative then
    if n = 0 then some (.float (signed true 0))
    else if n ≤ Nat.pow 2 63 then some (.int (-(n : Int)))
    else (decimal? true digits [] 0).map .float
  else if n < Nat.pow 2 64 then some (.int n)
  else (decimal? false digits [] 0).map .float

/-- The longest run of ASCII digits, and what follows it. -/
def digitRun (cs : List Char) : List Char × List Char :=
  (cs.takeWhile Char.isDigit, cs.dropWhile Char.isDigit)

/-- The exponent part, if one begins here, and what follows it. -/
def exponentPart? : List Char → Option (Option Int × List Char)
  | c :: cs =>
    if c = 'e' ∨ c = 'E' then
      let (negative, ds) := readSign cs
      let (run, rest) := digitRun ds
      if run = [] then none
      else some (some (if negative then -(digitsValue run : Int) else digitsValue run), rest)
    else some (none, c :: cs)
  | [] => some (none, [])

/-- A number without its sign, and what follows it. -/
def number? (negative : Bool) (cs : List Char) : Option (Document × List Char) :=
  let (whole, rest) := digitRun cs
  if whole = [] ∨ (whole.head? = some '0' ∧ 1 < whole.length) then none
  else
    match rest with
    | '.' :: after =>
      let (places, rest) := digitRun after
      if places = [] then none
      else do
        let (e, rest) ← exponentPart? rest
        let f ← decimal? negative whole places (e.getD 0)
        pure (.float f, rest)
    | _ => do
      let (e, rest) ← exponentPart? rest
      match e with
      | none => (whole? negative whole).map (·, rest)
      | some e => (decimal? negative whole [] e).map fun f => (.float f, rest)

/-! ### Strings -/

/-- Four digits to base 16. -/
def hexQuad? : List Char → Option (Nat × List Char)
  | a :: b :: c :: d :: rest => (Document.natOfDigits? 16 [a, b, c, d]).map (·, rest)
  | _ => none

/-- The character of an escape by code point, of which `\u` has been read. A code point beyond the
    first plane is written as a pair of surrogates; half a pair stands for nothing. -/
def codePoint? (cs : List Char) : Option (Char × List Char) := do
  let (n, rest) ← hexQuad? cs
  if 0xDC00 ≤ n ∧ n < 0xE000 then none
  else if 0xD800 ≤ n ∧ n < 0xDC00 then
    match rest with
    | '\\' :: 'u' :: rest => do
      let (m, rest) ← hexQuad? rest
      if 0xDC00 ≤ m ∧ m < 0xE000 then
        pure (Char.ofNat (0x10000 + (n - 0xD800) * 1024 + (m - 0xDC00)), rest)
      else none
    | _ => none
  else pure (Char.ofNat n, rest)

/-- The characters behind a backslash that stand for one character. -/
def escape? : Char → Option Char
  | '"' => some '"'
  | '\\' => some '\\'
  | '/' => some '/'
  | 'b' => some '\x08'
  | 'f' => some '\x0c'
  | 'n' => some '\n'
  | 'r' => some '\r'
  | 't' => some '\t'
  | _ => none

/-- One character of a string, and what follows it; nothing at the closing quotation mark. -/
def stringChar? : List Char → Option (Char × List Char)
  | '\\' :: 'u' :: rest => codePoint? rest
  | '\\' :: c :: rest => (escape? c).map (·, rest)
  | c :: rest => if c = '"' ∨ c.toNat < 32 then none else some (c, rest)
  | [] => none

/-- The characters of a string up to its closing quotation mark, and what follows that. -/
def stringRest? (cs : List Char) : Option (List Char × List Char) :=
  if cs.head? = some '"' then some ([], cs.tail)
  else
    match stringChar? cs with
    | none => none
    | some (c, rest) =>
      if _h : rest.length < cs.length then
        (stringRest? rest).map fun (s, r) => (c :: s, r)
      else none
termination_by cs.length

/-! ### Tokens -/

/-- The blanks between tokens. -/
def isSpace (c : Char) : Bool := c == ' ' || c == '\n' || c == '\t' || c == '\r'

/-- The token at the front, which is no blank, and what follows it. -/
def nextToken? : List Char → Option (Token × List Char)
  | '[' :: rest => some (.openList, rest)
  | ']' :: rest => some (.closeList, rest)
  | '\x7b' :: rest => some (.openFields, rest)
  | '\x7d' :: rest => some (.closeFields, rest)
  | ',' :: rest => some (.comma, rest)
  | ':' :: rest => some (.colon, rest)
  | '"' :: rest => (stringRest? rest).map fun (s, r) => (.scalar (.text (String.ofList s)), r)
  | 'n' :: 'u' :: 'l' :: 'l' :: rest => some (.scalar .null, rest)
  | 't' :: 'r' :: 'u' :: 'e' :: rest => some (.scalar (.bool true), rest)
  | 'f' :: 'a' :: 'l' :: 's' :: 'e' :: rest => some (.scalar (.bool false), rest)
  | '-' :: rest => (number? true rest).map fun (d, r) => (.scalar d, r)
  | cs => (number? false cs).map fun (d, r) => (.scalar d, r)

/-- The tokens of a text. -/
def tokenize : List Char → Option (List Token)
  | [] => some []
  | c :: rest =>
    if isSpace c then tokenize rest
    else
      match nextToken? (c :: rest) with
      | none => none
      | some (t, r) =>
        if _h : r.length < rest.length + 1 then (tokenize r).map (t :: ·) else none
termination_by cs => cs.length

/-! ### Assembly -/

/-- A container still open: what it holds so far, in reverse, and for a mapping the key whose value
    is being read. -/
inductive Frame
  | items (done : List Document)
  | entries (done : List (Document.Key × Document)) (key : String)

/-- What may come next. -/
inductive Expectation
  /-- A value, or the end of a list just opened. -/
  | firstItem
  /-- A value. -/
  | value
  /-- A key, or the end of a mapping just opened. -/
  | firstKey
  /-- A key. -/
  | key
  /-- The colon after a key. -/
  | colon
  /-- A comma or the end of the innermost container; at the top, nothing. -/
  | separator (top : Option Document)

/-- The stack of open containers and what may come next. -/
structure Assembly where
  stack : List Frame
  expected : Expectation

/-- How many containers may be open at once. -/
def depthLimit : Nat := 127

/-- Puts a finished value where it belongs. -/
def Assembly.put (stack : List Frame) (d : Document) : Assembly :=
  match stack with
  | [] => ⟨[], .separator (some d)⟩
  | .items done :: outer => ⟨.items (d :: done) :: outer, .separator none⟩
  | .entries done key :: outer =>
    ⟨.entries (Document.entry key d :: done) "" :: outer, .separator none⟩

/-- Opens a container. -/
def Assembly.enter (stack : List Frame) (f : Frame) (e : Expectation) : Option Assembly :=
  if stack.length < depthLimit then some ⟨f :: stack, e⟩ else none

/-- A token where a value may begin. -/
def Assembly.begin (stack : List Frame) : Token → Option Assembly
  | .scalar d => some (put stack d)
  | .openList => enter stack (.items []) .firstItem
  | .openFields => enter stack (.entries [] "") .firstKey
  | _ => none

/-- A token where a key may stand. -/
def Assembly.keyed (stack : List Frame) : Token → Option Assembly
  | .scalar (.text s) =>
    match stack with
    | .entries done _ :: outer => some ⟨.entries done s :: outer, .colon⟩
    | _ => none
  | _ => none

/-- The end of the innermost container. -/
def Assembly.close (stack : List Frame) : Token → Option Assembly
  | .closeList =>
    match stack with
    | .items done :: outer => some (put outer (.list done.reverse))
    | _ => none
  | .closeFields =>
    match stack with
    | .entries done _ :: outer => some (put outer (.fields done.reverse))
    | _ => none
  | _ => none

/-- Takes one token. -/
def Assembly.step (a : Assembly) (t : Token) : Option Assembly :=
  match a.expected, t with
  | .firstItem, .closeList => close a.stack t
  | .firstItem, t => begin a.stack t
  | .value, t => begin a.stack t
  | .firstKey, .closeFields => close a.stack t
  | .firstKey, t => keyed a.stack t
  | .key, t => keyed a.stack t
  | .colon, .colon => some ⟨a.stack, .value⟩
  | .colon, _ => none
  | .separator _, .comma =>
    match a.stack with
    | .items _ :: _ => some ⟨a.stack, .value⟩
    | .entries _ _ :: _ => some ⟨a.stack, .key⟩
    | [] => none
  | .separator _, t => close a.stack t

/-- The document that a text holds. -/
def parse? (s : String) : Option Document := do
  let tokens ← tokenize s.toList
  let final ← tokens.foldlM Assembly.step ⟨[], .value⟩
  match final with
  | ⟨[], .separator top⟩ => top
  | _ => none

end Cartograph.Json
