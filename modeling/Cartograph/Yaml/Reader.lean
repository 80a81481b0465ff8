import Cartograph.Yaml.Scalar

/-!
# Reading YAML

A node is a scalar, a list or mapping in brackets, or a block whose members stand in one column. A
block belongs to the innermost block that begins in a column to its left, so each reader of nodes is
given the column of the block around it (`node?`).

One document without anchors and tags is read; where a mapping or a list is expected, a value left
out counts as an empty one (`Document.plain ""`). Tabs do not indent.
-/

namespace Cartograph.Yaml

/-- Goes past the blanks on the line. -/
def Cursor.spaces (c : Cursor) : Cursor := c.moveTo (c.rest.dropWhile isSpace)

/-- Whether a comment or the end of the line is next. -/
def Cursor.atLineEnd (c : Cursor) : Bool := lineEndNext c.rest || c.rest.head? == some '#'

/-- Goes on to the next line that holds more than blanks and a comment, past its indentation. A tab
    in the indentation is refused. Inside a comment (`comment`) all is passed over. -/
def nextLine? (comment : Bool) (column : Nat) : List Char → Option Cursor
  | [] => some ⟨[], 0⟩
  | c :: rest =>
    if c = '\n' then nextLine? false 0 rest
    else if comment then nextLine? true column rest
    else if c = ' ' then nextLine? false (column + 1) rest
    else if c = '#' then nextLine? true column rest
    else if c = '\t' then none
    else some ⟨c :: rest, column⟩

/-- Goes past the rest of the line, which may hold only a comment, and on to the next node. -/
def Cursor.lineDone? (c : Cursor) : Option Cursor :=
  let d := c.spaces
  if d.atLineEnd then nextLine? true 0 d.rest else none

/-- Whether no node follows in this document. -/
def Cursor.atEnd (c : Cursor) : Bool := c.rest.isEmpty || c.column == 0 && isMark c.rest

/-- Goes past blanks, line ends and comments inside brackets. -/
def flowSpace (comment : Bool) : List Char → List Char
  | [] => []
  | c :: rest =>
    if c = '\n' then flowSpace false rest
    else if comment then flowSpace true rest
    else if isSpace c then flowSpace false rest
    else if c = '#' then flowSpace true rest
    else c :: rest

/-- Goes past everything that separates tokens inside brackets. -/
def Cursor.flowSpaces (c : Cursor) : Cursor := c.moveTo (flowSpace false c.rest)

/-- What is left out. -/
def nothing : Document := .plain ""

/-- A scalar as a key. -/
def keyOf? : Document → Option Document.Key
  | .plain s => some ⟨s, true⟩
  | .text s => some ⟨s, false⟩
  | _ => none

/-- Whether the colon behind a key is next. -/
def colonNext : List Char → Bool
  | ':' :: rest => blankNext rest
  | _ => false

/-- Whether the dash of a list member is next. -/
def dashNext : List Char → Bool
  | '-' :: rest => blankNext rest
  | _ => false

/-! ### Block scalars -/

/-- How a block scalar treats the line ends behind its last line. -/
inductive Chomping
  | strip
  | clip
  | keep

/-- The header of a block scalar behind its first character: chomping, and the indentation if it is
    given. -/
def header? (chomping : Chomping) (indent : Option Nat) : List Char → Option (Chomping × Option Nat)
  | [] => some (chomping, indent)
  | '-' :: rest => header? .strip indent rest
  | '+' :: rest => header? .keep indent rest
  | c :: rest =>
    if c.isDigit && c != '0' && indent.isNone then
      header? chomping (some (c.toNat - '0'.toNat)) rest
    else if isSpace c then
      let after := rest.dropWhile isSpace
      if after.isEmpty || after.head? == some '#' then some (chomping, indent) else none
    else none

/-- The lines of a block scalar, each with its content behind the indentation: `none` is a blank
    line. The block ends at a line that is indented less. -/
def blockLines (indent : Nat) (cs : List Char) : List (Option (List Char)) × List Char :=
  let spaces := cs.takeWhile (· = ' ')
  let line := cs.takeWhile (· ≠ '\n')
  let after := cs.drop (line.length + 1)
  if cs.isEmpty then ([], [])
  else if line.length ≤ indent && line.length == spaces.length then
    if _h : after.length < cs.length then
      let (ls, rest) := blockLines indent after
      (none :: ls, rest)
    else ([none], [])
  else if spaces.length < indent then ([], cs)
  else if _h : after.length < cs.length then
    let (ls, rest) := blockLines indent after
    (some (line.drop indent) :: ls, rest)
  else ([some (line.drop indent)], [])
termination_by cs.length

/-- The column of the first line that is not blank. -/
def firstIndent (cs : List Char) : Nat :=
  ((cs.dropWhile fun c => c == ' ' || c == '\n') |> fun rest =>
    ((cs.take (cs.length - rest.length)).reverse.takeWhile (· == ' ')).length)

/-- Whether a line begins with a blank. -/
def startsBlank (line : List Char) : Bool := line.head?.any isSpace

/-- The lines joined: `last` is the line before, `ends` the count of blank lines since. Unless line
    ends are kept (`literal`), two lines that begin with a character are folded. -/
def joinLines (literal : Bool) (chomping : Chomping) (last : Option (List Char)) (ends : Nat) :
    List (Option (List Char)) → List Char
  | [] =>
    let own := if last.isSome then ['\n'] else []
    match chomping with
    | .strip => []
    | .clip => own
    | .keep => own ++ List.replicate ends '\n'
  | none :: rest => joinLines literal chomping last (ends + 1) rest
  | some line :: rest =>
    let gap := match last with
      | none => List.replicate ends '\n'
      | some before =>
        if !literal && !startsBlank before && !startsBlank line then
          if ends = 0 then [' '] else List.replicate ends '\n'
        else '\n' :: List.replicate ends '\n'
    gap ++ line ++ joinLines literal chomping (some line) 0 rest

/-- A block scalar inside a block in the column `indent`, of which the first character has been
    read. -/
def blockScalar? (literal : Bool) (indent : Int) (c : Cursor) : Option (Document × Cursor) := do
  let line := c.rest.takeWhile (· ≠ '\n')
  let body := c.rest.drop (line.length + 1)
  let (chomping, given) ← header? .clip none line
  let outer := (max indent 0).toNat
  let column := match given with
    | some n => outer + n
    | none => max (firstIndent body) (indent + 1).toNat
  let (lines, rest) := blockLines column body
  pure (.text (String.ofList (joinLines literal chomping none 0 lines)), ⟨'\n' :: rest, 0⟩)

/-! ### Nodes -/

/-- A scalar on its own and what follows it. -/
def scalar? (inFlow : Bool) (indent : Int) (c : Cursor) : Option (Document × Cursor) :=
  match c.rest with
  | '\'' :: rest =>
    (singleQuoted? [] rest).map fun (s, r) => (.text (String.ofList s), c.moveTo r)
  | '"' :: rest =>
    (doubleQuoted? [] rest).map fun (s, r) => (.text (String.ofList s), c.moveTo r)
  | cs =>
    if plainStarts inFlow cs then
      let (s, next) := plainLines inFlow indent [] c
      if inFlow && strayColonNext next.rest then none
      else some (.plain (String.ofList s), next)
    else none

mutual

/-- A list, mapping or scalar inside brackets. The first number bounds the nesting of calls. -/
def flowNode? : Nat → Cursor → Option (Document × Cursor)
  | 0, _ => none
  | fuel + 1, c =>
    match c.rest with
    | '[' :: rest => flowItems? fuel [] (c.moveTo rest).flowSpaces
    | '\x7b' :: rest => flowEntries? fuel [] (c.moveTo rest).flowSpaces
    | _ => scalar? true (-1) c

/-- The value behind a colon inside brackets, which may be left out. -/
def flowValue? : Nat → Cursor → Option (Document × Cursor)
  | 0, _ => none
  | fuel + 1, c =>
    match c.rest with
    | ',' :: _ => some (nothing, c)
    | ']' :: _ => some (nothing, c)
    | '\x7d' :: _ => some (nothing, c)
    | _ => flowNode? fuel c

/-- The members of a list in brackets, of which `done` (in reverse) have been read. A member may be
    a single entry, which is a mapping of its own. -/
def flowItems? : Nat → List Document → Cursor → Option (Document × Cursor)
  | 0, _, _ => none
  | fuel + 1, done, c =>
    match c.rest with
    | [] => none
    | ']' :: rest => some (.list done.reverse, c.moveTo rest)
    | _ => do
      let (d, next) ← flowNode? fuel c
      let next := next.flowSpaces
      let (d, next) ← match next.rest with
        | ':' :: rest => do
          let key ← keyOf? d
          let (v, next) ← flowValue? fuel (next.moveTo rest).flowSpaces
          pure (.fields [(key, v)], next.flowSpaces)
        | _ => pure (d, next)
      match next.rest with
      | ',' :: rest => flowItems? fuel (d :: done) (next.moveTo rest).flowSpaces
      | ']' :: rest => pure (.list (d :: done).reverse, next.moveTo rest)
      | _ => none

/-- The entries of a mapping in braces, of which `done` (in reverse) have been read. -/
def flowEntries? :
    Nat → List (Document.Key × Document) → Cursor → Option (Document × Cursor)
  | 0, _, _ => none
  | fuel + 1, done, c =>
    match c.rest with
    | [] => none
    | '\x7d' :: rest => some (.fields done.reverse, c.moveTo rest)
    | _ => do
      let (d, next) ← flowNode? fuel c
      let key ← keyOf? d
      let next := next.flowSpaces
      let (v, next) ← match next.rest with
        | ':' :: rest => do
          let (v, next) ← flowValue? fuel (next.moveTo rest).flowSpaces
          pure (v, next.flowSpaces)
        | _ => pure (nothing, next)
      match next.rest with
      | ',' :: rest => flowEntries? fuel ((key, v) :: done) (next.moveTo rest).flowSpaces
      | '\x7d' :: rest => pure (.fields ((key, v) :: done).reverse, next.moveTo rest)
      | _ => none

end

/-- A node that needs no block: in brackets, in quotation marks or plain; and whether it stands on
    one line. -/
def inlineNode? (fuel : Nat) (indent : Int) (c : Cursor) :
    Option (Document × Bool × Cursor) := do
  let (d, next) ← match c.rest with
    | '[' :: _ => flowNode? fuel c
    | '\x7b' :: _ => flowNode? fuel c
    | _ => scalar? false indent c
  let used := c.rest.take (c.rest.length - next.rest.length)
  pure (d, !used.contains '\n', next)

mutual

/-- A node inside a block in the column `indent`, up to the next node behind it. A node on the line
    of its key (`inline`) is no block. -/
def node? : Nat → Int → Bool → Cursor → Option (Document × Cursor)
  | 0, _, _, _ => none
  | fuel + 1, indent, inline, c =>
    if dashNext c.rest then
      if inline then none else blockItems? fuel c.column [] c
    else
      match c.rest with
      | '|' :: rest => do
        let (d, next) ← blockScalar? true indent (c.moveTo rest)
        pure (d, ← next.lineDone?)
      | '>' :: rest => do
        let (d, next) ← blockScalar? false indent (c.moveTo rest)
        pure (d, ← next.lineDone?)
      | _ => do
        let (d, oneLine, next) ← inlineNode? fuel indent c
        if colonNext next.spaces.rest then
          if inline || !oneLine then none
          else
            let key ← keyOf? d
            blockEntries? fuel c.column [] key next.spaces
        else pure (d, ← next.lineDone?)

/-- The value behind the colon of an entry of a block in the column `indent`, up to the next node. A
    list may stand in the column of the block itself. -/
def entryValue? : Nat → Int → Cursor → Option (Document × Cursor)
  | 0, _, _ => none
  | fuel + 1, indent, c =>
    let c := c.spaces
    if c.atLineEnd then do
      let next ← c.lineDone?
      if next.atEnd then pure (nothing, next)
      else if (next.column : Int) = indent ∧ dashNext next.rest then
        blockItems? fuel next.column [] next
      else if (next.column : Int) ≤ indent then pure (nothing, next)
      else node? fuel indent false next
    else node? fuel indent true c

/-- The entries of a block in the column `column`, of which `done` (in reverse) have been read, from
    the colon behind a key on. -/
def blockEntries? : Nat → Nat → List (Document.Key × Document) → Document.Key → Cursor →
    Option (Document × Cursor)
  | 0, _, _, _, _ => none
  | fuel + 1, column, done, key, c => do
    let (v, next) ← entryValue? fuel column (c.moveTo c.rest.tail)
    let done := (key, v) :: done
    if next.atEnd || next.column < column then pure (.fields done.reverse, next)
    else if next.column ≠ column || dashNext next.rest then none
    else
      let (d, oneLine, after) ← inlineNode? fuel column next
      if oneLine && colonNext after.spaces.rest then
        let key ← keyOf? d
        blockEntries? fuel column done key after.spaces
      else none

/-- The members of a block list in the column `column`, of which `done` (in reverse) have been read,
    from the dash of a member on. -/
def blockItems? : Nat → Nat → List Document → Cursor → Option (Document × Cursor)
  | 0, _, _, _ => none
  | fuel + 1, column, done, c => do
    let inner := (c.moveTo c.rest.tail).spaces
    let (d, next) ←
      if inner.atLineEnd then do
        let next ← inner.lineDone?
        if next.atEnd || next.column ≤ column then pure (nothing, next)
        else node? fuel column false next
      else node? fuel column false inner
    let done := d :: done
    if next.atEnd || next.column < column then pure (.list done.reverse, next)
    else if next.column ≠ column then none
    else if dashNext next.rest then blockItems? fuel column done next
    else pure (.list done.reverse, next)

end

/-- Goes past the mark at the beginning of a document. -/
def begin? (c : Cursor) : Option Cursor :=
  if c.column == 0 && isMark c.rest && c.rest.head? == some '-' then
    let d := (c.moveTo (c.rest.drop 3)).spaces
    if d.atLineEnd then d.lineDone? else some d
  else some c

/-- Whether nothing follows the document, except a mark at its end. -/
def finished (c : Cursor) : Bool :=
  c.rest.isEmpty
    || c.column == 0 && isMark c.rest && c.rest.head? == some '.'
      && ((nextLine? false 0 (c.rest.drop 3)).any fun d => d.rest.isEmpty)

/-- The text with its line ends written in one way. -/
def unifyLineEnds : List Char → List Char
  | '\r' :: '\n' :: rest => '\n' :: unifyLineEnds rest
  | '\r' :: rest => '\n' :: unifyLineEnds rest
  | c :: rest => c :: unifyLineEnds rest
  | [] => []

/-- The document that a text holds. -/
def parse? (s : String) : Option Document := do
  let cs := match s.toList with
    | '\ufeff' :: rest => rest
    | cs => cs
  if !cs.all isReadable then none
  let cs := unifyLineEnds cs
  let start ← nextLine? false 0 cs
  let first ← begin? start
  if first.atEnd then
    if finished first then pure nothing else none
  else
    let (d, last) ← node? (4 * cs.length + 8) (-1) false first
    if finished last then pure d else none

end Cartograph.Yaml
