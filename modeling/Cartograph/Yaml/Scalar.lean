import Cartograph.Document

/-!
# YAML scalars

The three ways to write a scalar on the current line and the lines after it: in single quotation
marks, in double quotation marks with escapes, and plain. Line ends inside a scalar are folded: a
single one counts as a space, and blank lines count as line ends (`fold`).

A place in the text (`Cursor`) knows its column, because indentation ends a plain scalar and a
block.
-/

namespace Cartograph.Yaml

/-- The text from a place on, and the column of the place. -/
structure Cursor where
  rest : List Char
  column : Nat

/-- The place where only `rest` is left. -/
def Cursor.moveTo (c : Cursor) (rest : List Char) : Cursor :=
  let used := c.rest.take (c.rest.length - rest.length)
  let column :=
    if '\n' ∈ used then (used.reverse.takeWhile (· ≠ '\n')).length else c.column + used.length
  ⟨rest, column⟩

/-- A space or tab. -/
def isSpace (c : Char) : Bool := c == ' ' || c == '\t'

/-- Whether a blank, a line end or the end of the text is next. -/
def blankNext : List Char → Bool
  | [] => true
  | c :: _ => isSpace c || c == '\n'

/-- Whether a line end or the end of the text is next. -/
def lineEndNext : List Char → Bool
  | [] => true
  | c :: _ => c == '\n'

/-- What a line end together with the blanks and blank lines around it counts as, and what follows
    them: `cs` begins behind the line end. -/
def fold (cs : List Char) : List Char × List Char :=
  let gap := cs.takeWhile fun c => isSpace c || c == '\n'
  let ends := gap.count '\n'
  (if ends = 0 then [' '] else List.replicate ends '\n', cs.drop gap.length)

/-- Removes the spaces that come first, which are the last ones of a scalar in reverse. -/
def dropSpaces (out : List Char) : List Char := out.dropWhile isSpace

/-- The rest of a scalar in single quotation marks, of which `out` (in reverse) has been read. -/
def singleQuoted? (out cs : List Char) : Option (List Char × List Char) :=
  match cs with
  | [] => none
  | '\'' :: '\'' :: rest => singleQuoted? ('\'' :: out) rest
  | '\'' :: rest => some (out.reverse, rest)
  | '\n' :: rest =>
    let (folded, after) := fold rest
    if _h : after.length < rest.length + 1 then
      singleQuoted? (folded.reverse ++ dropSpaces out) after
    else none
  | c :: rest => singleQuoted? (c :: out) rest
termination_by cs.length

/-- The characters behind a backslash that stand for one character. -/
def escapes : List (Char × Char) :=
  [('0', '\x00'), ('a', '\x07'), ('b', '\x08'), ('t', '\t'), ('\t', '\t'), ('n', '\n'),
    ('v', '\x0b'), ('f', '\x0c'), ('r', '\r'), ('e', '\x1b'), (' ', ' '), ('"', '"'), ('/', '/'),
    ('\\', '\\'), ('N', '\u0085'), ('_', '\u00a0'), ('L', '\u2028'), ('P', '\u2029')]

/-- The count of digits of an escape by code point. -/
def hexCount? : Char → Option Nat
  | 'x' => some 2
  | 'u' => some 4
  | 'U' => some 8
  | _ => none

/-- The character of an escape of which the backslash has been read, and what follows it. -/
def escape? : List Char → Option (Char × List Char)
  | [] => none
  | c :: rest =>
    match hexCount? c with
    | some count =>
      if rest.length < count then none
      else (Document.natOfDigits? 16 (rest.take count)).bind fun n =>
        if n.isValidChar then some (Char.ofNat n, rest.drop count) else none
    | none => (escapes.find? (·.1 == c)).map fun e => (e.2, rest)

/-- The rest of a scalar in double quotation marks, of which `out` (in reverse) has been read. A
    line end behind a backslash counts as nothing. -/
def doubleQuoted? (out cs : List Char) : Option (List Char × List Char) :=
  match cs with
  | [] => none
  | '"' :: rest => some (out.reverse, rest)
  | '\\' :: '\n' :: rest =>
    if _h : (dropSpaces rest).length < rest.length + 2 then doubleQuoted? out (dropSpaces rest)
    else none
  | '\\' :: rest =>
    match escape? rest with
    | none => none
    | some (c, after) =>
      if _h : after.length < rest.length + 1 then doubleQuoted? (c :: out) after else none
  | '\n' :: rest =>
    let (folded, after) := fold rest
    if _h : after.length < rest.length + 1 then
      doubleQuoted? (folded.reverse ++ dropSpaces out) after
    else none
  | c :: rest => doubleQuoted? (c :: out) rest
termination_by cs.length

/-- The characters that stand for themselves only inside a scalar. -/
def indicators : List Char :=
  ['-', '?', ':', ',', '[', ']', '\x7b', '\x7d', '#', '&', '*', '!', '|', '>', '\'', '"', '%', '@',
    Char.ofNat 96]

/-- The characters that end a plain scalar inside brackets. -/
def isFlowEnd (c : Char) : Bool := c == ',' || c == '[' || c == ']' || c == '\x7b' || c == '\x7d'

/-- Whether a colon is next that may stand neither in a plain scalar inside brackets nor behind one:
    a mark of brackets follows it without a blank. -/
def strayColonNext : List Char → Bool
  | ':' :: c :: _ => isFlowEnd c || c == '?'
  | _ => false

/-- Whether a plain scalar may begin here, inside brackets or not. -/
def plainStarts (inFlow : Bool) : List Char → Bool
  | [] => false
  | c :: rest =>
    if isSpace c || c == '\n' then false
    else if c == '-' then !blankNext rest
    else if c == '?' || c == ':' then !inFlow && !blankNext rest
    else !indicators.contains c

/-- The part of a plain scalar on its line, with the blanks behind it, and what follows; `blank`
    tells whether the character before was a blank. -/
def plainLine (inFlow blank : Bool) : List Char → List Char × List Char
  | [] => ([], [])
  | c :: rest =>
    if c == '\n' || (c == '#' && blank) || (c == ':' && blankNext rest)
        || (inFlow && (isFlowEnd c || strayColonNext (c :: rest)))
    then ([], c :: rest)
    else
      let (taken, after) := plainLine inFlow (isSpace c) rest
      (c :: taken, after)

/-- Whether a line consists of a mark between documents. -/
def isMark (cs : List Char) : Bool :=
  (cs.take 3 == ['-', '-', '-'] || cs.take 3 == ['.', '.', '.']) && blankNext (cs.drop 3)

/-- A plain scalar and what follows it. It goes on with the next lines as long as they are indented
    by more than `indent`; of the lines so far `out` is known. -/
def plainLines (inFlow : Bool) (indent : Int) (out : List Char) (c : Cursor) : List Char × Cursor :=
  let (taken, after) := plainLine inFlow false c.rest
  let out := out ++ (dropSpaces taken.reverse).reverse
  match after with
  | '\n' :: rest =>
    let (folded, next) := fold rest
    let place := c.moveTo next
    if (place.column : Int) ≤ indent && !inFlow || isMark next && place.column == 0
      || next.head? == some '#' || (plainLine inFlow true next).1.isEmpty
    then (out, c.moveTo after)
    else if _h : next.length < c.rest.length then plainLines inFlow indent (out ++ folded) place
    else (out, c.moveTo after)
  | _ => (out, c.moveTo after)
termination_by c.rest.length
decreasing_by simpa [place, Cursor.moveTo] using _h

/-- Whether a text holds only characters that may stand in a document. -/
def isReadable (c : Char) : Bool :=
  let n := c.toNat
  c == '\t' || c == '\n' || c == '\r' || (0x20 ≤ n && n ≤ 0x7E) || n == 0x85
    || (0xA0 ≤ n && n ≤ 0xFFFD && n != 0xFEFF) || 0x10000 ≤ n

end Cartograph.Yaml
