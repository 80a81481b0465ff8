import Cartograph.Document
import Cartograph.Text.Search

/-!
# Scalars of TOML

The smallest parts of a TOML text: blanks and comments, strings in single or double quotation marks,
names, and words (truth values, numbers and dates).

A reader gets the characters from where it is to begin and returns what it has read with the
characters that follow. A date holds nothing that is ever asked for: it stands for a record without
fields.
-/

namespace Cartograph.Toml

/-- A space or tab. -/
def isSpace (c : Char) : Bool := c == ' ' || c == '\t'

/-- Goes past blanks on the line. -/
def spaces (cs : List Char) : List Char := cs.dropWhile isSpace

/-- A character that may stand in a comment. -/
def isCommentPart (c : Char) : Bool := c == '\t' || 32 ≤ c.toNat

/-- The end of a line: blanks, a comment, and the line end. -/
def lineEnd? (cs : List Char) : Option (List Char) :=
  let rest := match spaces cs with
    | '#' :: r => r.dropWhile isCommentPart
    | r => r
  match rest with
  | [] => some []
  | '\n' :: r => some r
  | _ => none

/-- Goes past blanks, line ends and comments. -/
def gap (comment : Bool) : List Char → List Char
  | [] => []
  | c :: rest =>
    if c = '\n' then gap false rest
    else if comment && isCommentPart c then gap true rest
    else if isSpace c then gap false rest
    else if c = '#' then gap true rest
    else c :: rest

/-! ### Strings and names -/

/-- The characters behind a backslash that stand for one character. -/
def escapes : List (Char × Char) :=
  [('b', '\x08'), ('t', '\t'), ('n', '\n'), ('f', '\x0c'), ('r', '\r'), ('"', '"'), ('\\', '\\')]

/-- The character of an escape of which the backslash has been read, and what follows it. -/
def escape? : List Char → Option (Char × List Char)
  | [] => none
  | c :: rest =>
    let count := if c = 'u' then 4 else if c = 'U' then 8 else 0
    if count = 0 then (escapes.find? (·.1 == c)).map fun e => (e.2, rest)
    else if rest.length < count then none
    else (Document.natOfDigits? 16 (rest.take count)).bind fun n =>
      if n.isValidChar then some (Char.ofNat n, rest.drop count) else none

/-- Whether a character may stand as it is in a string; line ends only in one over several lines. -/
def isStringPart (multi : Bool) (c : Char) : Bool :=
  c == '\t' || (multi && c == '\n') || (32 ≤ c.toNat && c != '\x7f')

/-- What follows a mark in a string over several lines: the end of the string, which takes two
    further marks in front of it along, or nothing if the mark belongs to the string. -/
def multiEnd? (mark : Char) (out : List Char) : List Char → Option (List Char × List Char)
  | c :: d :: rest =>
    if c = mark ∧ d = mark then
      let extra := (rest.take 2).takeWhile (· == mark)
      some (out.reverse ++ extra, rest.drop extra.length)
    else none
  | _ => none

/-- Goes past blanks and line ends. -/
def pastLineEnds (cs : List Char) : List Char := cs.dropWhile fun c => isSpace c || c == '\n'

/-- The rest of a string in double quotation marks. In a string over several lines, which ends at
    three marks, a backslash at the end of a line passes over the blanks and line ends behind it. -/
def basicRest? (multi : Bool) (out cs : List Char) : Option (List Char × List Char) :=
  match cs with
  | [] => none
  | '"' :: rest =>
    if !multi then some (out.reverse, rest)
    else match multiEnd? '"' out rest with
      | some done => some done
      | none => basicRest? multi ('"' :: out) rest
  | '\\' :: rest =>
    if multi && (spaces rest).head? == some '\n' then
      if _h : (pastLineEnds rest).length < rest.length + 1 then
        basicRest? multi out (pastLineEnds rest)
      else none
    else match escape? rest with
      | none => none
      | some (c, after) =>
        if _h : after.length < rest.length + 1 then basicRest? multi (c :: out) after else none
  | c :: rest => if isStringPart multi c then basicRest? multi (c :: out) rest else none
termination_by cs.length

/-- The rest of a string in single quotation marks, which knows no escapes. -/
def literalRest? (multi : Bool) (out : List Char) : List Char → Option (List Char × List Char)
  | [] => none
  | '\'' :: rest =>
    if !multi then some (out.reverse, rest)
    else match multiEnd? '\'' out rest with
      | some done => some done
      | none => literalRest? multi ('\'' :: out) rest
  | c :: rest => if isStringPart multi c then literalRest? multi (c :: out) rest else none

/-- Without the line end right behind the opening marks. -/
def dropLineEnd : List Char → List Char
  | '\n' :: rest => rest
  | cs => cs

/-- A string on one line or, if welcome, on several. -/
def string? (several : Bool) : List Char → Option (List Char × List Char)
  | '"' :: '"' :: '"' :: rest => if several then basicRest? true [] (dropLineEnd rest) else none
  | '"' :: rest => basicRest? false [] rest
  | '\'' :: '\'' :: '\'' :: rest =>
    if several then literalRest? true [] (dropLineEnd rest) else none
  | '\'' :: rest => literalRest? false [] rest
  | _ => none

/-- A character of a name without quotation marks. -/
def isBare (c : Char) : Bool := c.isAlphanum || c == '_' || c == '-'

/-- A nonempty word of such characters. -/
def bare? (cs : List Char) : Option (List Char × List Char) :=
  match cs.takeWhile isBare with
  | [] => none
  | word => some (word, cs.drop word.length)

/-- A name in a key. -/
def name? (cs : List Char) : Option (String × List Char) :=
  match string? false cs with
  | some (s, rest) => some (String.ofList s, rest)
  | none => (bare? cs).map fun (word, rest) => (String.ofList word, rest)

/-- A key: names joined by dots. -/
def key? (cs : List Char) : Option (List String × List Char) :=
  match name? cs with
  | none => none
  | some (n, rest) =>
    match spaces rest with
    | '.' :: more =>
      if _h : (spaces more).length < cs.length then
        (key? (spaces more)).map fun (ns, r) => (n :: ns, r)
      else none
    | rest => some ([n], rest)
termination_by cs.length

/-! ### Numbers -/

/-- Digits in which an underscore may stand between two digits. -/
def plainDigits? (isDigit : Char → Bool) (cs : List Char) : Option (List Char) :=
  let parts := cs.splitOn '_'
  if parts.all fun p => !p.isEmpty && p.all isDigit then some parts.flatten else none

/-- A whole number of 64 bits. -/
def integer? (cs : List Char) : Option Document :=
  let (negative, ds) := Decimal.readSign cs
  let based (base : Nat) (rest : List Char) :=
    if negative then none
    else (plainDigits? (fun c => (Document.digitValue? base c).isSome) rest).bind
      (Document.natOfDigits? base)
  let n? := match ds with
    | '0' :: 'x' :: rest => based 16 rest
    | '0' :: 'o' :: rest => based 8 rest
    | '0' :: 'b' :: rest => based 2 rest
    | _ =>
      if Document.hasLeadingZero ds then none
      else (plainDigits? Char.isDigit ds).map Decimal.digitsValue
  n?.bind fun n =>
    let i : Int := if negative then -(n : Int) else n
    if Decimal.minInt ≤ i ∧ i ≤ Decimal.maxInt then some (.int i) else none

/-- A number with a point or an exponent, or the name of infinity or of what is not a number. -/
def float? (cs : List Char) : Option Document :=
  let (negative, ds) := Decimal.readSign cs
  if ds = "inf".toList then some (.float (Decimal.signed negative Decimal.infinityBits))
  else if ds = "nan".toList then some (.float (0.0 / 0.0))
  else
    let isPart (c : Char) : Bool := c.isDigit || c == '_'
    let whole := ds.takeWhile isPart
    let rest := ds.drop whole.length
    let (places, tail) : Option (List Char) × List Char := match rest with
      | '.' :: r => (some (r.takeWhile isPart), r.dropWhile isPart)
      | r => (none, r)
    if Document.hasLeadingZero whole || rest.isEmpty then none
    else do
      let w ← plainDigits? Char.isDigit whole
      let p ← match places with
        | none => pure []
        | some p => plainDigits? Char.isDigit p
      let e ← Decimal.readExponent? (tail.filter (· ≠ '_'))
      let f := Decimal.ofDecimal negative (Decimal.digitsValue (w ++ p)) (e - p.length)
      if f.isFinite then pure (.float f) else none

/-- A number. Two signs may stand in front of one if the first is a plus. -/
def number? (cs : List Char) : Option Document :=
  let unsigned := match cs with
    | '+' :: r => r
    | r => r
  if unsigned.head? = some '+' then none
  else match integer? unsigned with
    | some d => some d
    | none => float? unsigned

/-! ### Dates and words -/

/-- What follows a mark and a word, both of which may be missing together. -/
def markedWord? (mark : Char) (cs : List Char) : Option (List Char) :=
  match cs with
  | [] => some []
  | c :: rest => if c = mark then (bare? rest).map (·.2) else some (c :: rest)

/-- What follows the minutes of a time: seconds with places, and an offset. -/
def afterMinutes? (cs : List Char) : Option (List Char) :=
  match cs with
  | ':' :: rest => do
    let (_, rest) ← bare? rest
    let rest ← markedWord? '.' rest
    let rest ← markedWord? '+' rest
    markedWord? ':' rest
  | _ => none

/-- What follows a date or time of which the first word has been read. -/
def afterDate? (cs : List Char) : Option (List Char) :=
  let cs := match cs with
    | ' ' :: rest =>
      match bare? rest with
      | some (_, after) => after
      | none => cs
    | _ => cs
  match cs with
  | ':' :: rest => (bare? rest).bind fun (_, rest) => afterMinutes? rest
  | _ => some cs

/-- Whether a word is a day, or a day with a time: it has a `T`, or a hyphen that is neither at its
    beginning nor the sign of an exponent. -/
def isDay (word : List Char) : Bool :=
  let signed (mark : Char) : Bool := Text.occurs [mark, '-'] word
  word.contains 'T' || word.contains 't'
    || ((word.drop 1).contains '-' && !signed 'e' && !signed 'E')

/-- A character of a number. -/
def isNumberPart (c : Char) : Bool := isBare c || c == '+' || c == '.'

/-- A number or a date. -/
def numberOrDate? (cs : List Char) : Option (Document × List Char) :=
  let word := cs.takeWhile isBare
  let rest := cs.drop word.length
  let opens := word.head?.any fun c => c.isDigit || c == '-'
  if opens && (isDay word || rest.head? == some ':') then
    (afterDate? rest).map (Document.fields [], ·)
  else
    let number := cs.takeWhile isNumberPart
    (number? number).map (·, cs.drop number.length)

/-- A truth value, a number or a date. -/
def word? (cs : List Char) : Option (Document × List Char) :=
  match bare? cs with
  | some (word, rest) =>
    if word = "true".toList then some (.bool true, rest)
    else if word = "false".toList then some (.bool false, rest)
    else numberOrDate? cs
  | none => numberOrDate? cs

end Cartograph.Toml
