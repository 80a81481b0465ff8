import Cartograph.Text.Blank

/-!
# Scripts

The syntax of shell scripts: words with quotation marks and parameters, simple commands with
redirections, pipelines, and their combinations.

A text is cut into tokens (`tokens?`), from which a script is read (`Script.parse?`). Loops,
functions, patterns of file names and the substitution of commands are not part of the language.
-/

namespace Cartograph.Shell

/-! ### Words and tokens -/

/-- A part of a word: a character, or the value of a parameter. The value of a parameter that was
    not quoted is split at blanks. -/
inductive Piece
  | char (c : Char) (quoted : Bool)
  | parameter (name : String) (quoted : Bool)
  deriving Repr, DecidableEq

/-- A word before its parameters are replaced. -/
structure Word where
  pieces : List Piece
  /-- Whether it has quotation marks, so that it stands for a word even if nothing is in it. -/
  hasQuotes : Bool
  deriving Repr, DecidableEq

namespace Word

def empty : Word := ⟨[], false⟩

/-- A word with one more piece. -/
def add (w : Word) (p : Piece) : Word := { w with pieces := w.pieces ++ [p] }

/-- A word with quotation marks. -/
def quoted (w : Word) : Word := { w with hasQuotes := true }

/-- The character of a piece that was not quoted. -/
def plainChar? : Piece → Option Char
  | .char c false => some c
  | _ => none

/-- The text of a word without quotation marks and parameters. -/
def plain? (w : Word) : Option String :=
  if w.hasQuotes then none else (w.pieces.mapM plainChar?).map String.ofList

end Word

/-- A kind of redirection. -/
inductive Direction
  | input
  | output
  | append
  /-- To what another stream is directed to. -/
  | duplicate
  deriving Repr, DecidableEq

/-- A token: a word, a mark, or the beginning of a redirection of a stream. -/
inductive Token
  | word (w : Word)
  | mark (s : String)
  | redirection (stream : Nat) (direction : Direction)
  deriving Repr, DecidableEq

/-- A character that ends a word without quotation marks. -/
def endsWord (c : Char) : Bool := [' ', '\t', '\n', ';', '&', '|', '<', '>', '(', ')'].contains c

def isNameStart (c : Char) : Bool := c.isAlpha || c == '_'

def isNamePart (c : Char) : Bool := c.isAlphanum || c == '_'

/-- The parameters whose names are single marks or digits. -/
def isSpecialName (c : Char) : Bool := c.isDigit || ['$', '?', '#', '@', '*', '!', '-'].contains c

/-- The name of a parameter behind its dollar sign, and what follows it. -/
def parameter? : List Char → Option (String × List Char)
  | '\x7b' :: rest =>
    let name := rest.takeWhile (· ≠ '\x7d')
    if !name.isEmpty && (name.all isNamePart || (name.length == 1 && name.all isSpecialName)) then
      match rest.drop name.length with
      | '\x7d' :: after => some (String.ofList name, after)
      | _ => none
    else none
  | c :: rest =>
    if isSpecialName c then some (String.singleton c, rest)
    else if isNameStart c then
      let name := (c :: rest).takeWhile isNamePart
      some (String.ofList name, (c :: rest).drop name.length)
    else none
  | [] => none

/-- The characters in front of which a backslash counts between double quotation marks. -/
def isEscapable (c : Char) : Bool := ['$', '\x60', '"', '\\'].contains c

/-- The rest of a word, of which `w` has been read. -/
def wordRest? (double : Bool) (w : Word) (cs : List Char) : Option (Word × List Char) :=
  match cs with
  | [] => if double then none else some (w, [])
  | '\\' :: '\n' :: rest => wordRest? double w rest
  | '\\' :: c :: rest =>
    if double && !isEscapable c then
      wordRest? double ((w.add (.char '\\' true)).add (.char c true)) rest
    else wordRest? double (w.add (.char c true)).quoted rest
  | '"' :: rest => wordRest? (!double) w.quoted rest
  | c :: rest =>
    if c = '\'' ∧ !double then
      let text := rest.takeWhile (· ≠ '\'')
      match rest.drop text.length with
      | _ :: after =>
        if _h : after.length < rest.length + 1 then
          wordRest? double (text.foldl (fun w c => w.add (.char c true)) w.quoted) after
        else none
      | [] => none
    else if c = '$' then
      match parameter? rest with
      | some (name, after) =>
        if _h : after.length < rest.length + 1 then
          wordRest? double (w.add (.parameter name double)) after
        else none
      | none =>
        if rest.head? = some '(' ∨ rest.head? = some '\x7b' then none
        else wordRest? double (w.add (.char c true)) rest
    else if c = '\x60' then none
    else if endsWord c && !double then some (w, c :: rest)
    else wordRest? double (w.add (.char c double)) rest
termination_by cs.length

/-- The kind of a redirection behind its first mark. -/
def direction? (mark : Char) (rest : List Char) : Option (Direction × List Char) :=
  match mark, rest with
  | '>', '>' :: r => some (.append, r)
  | '>', '&' :: r => some (.duplicate, r)
  | '>', '|' :: r => some (.output, r)
  | '>', r => some (.output, r)
  | '<', '&' :: r => some (.duplicate, r)
  | '<', '<' :: _ => none
  | '<', '>' :: _ => none
  | '<', r => some (.input, r)
  | _, _ => none

/-- A redirection, which may name its stream by a digit. -/
def redirection? : List Char → Option (Token × List Char)
  | '<' :: rest => (direction? '<' rest).map fun (d, r) => (.redirection 0 d, r)
  | '>' :: rest => (direction? '>' rest).map fun (d, r) => (.redirection 1 d, r)
  | c :: mark :: rest =>
    if c.isDigit && (mark == '<' || mark == '>') then
      (direction? mark rest).map fun (d, r) => (.redirection (c.toNat - '0'.toNat) d, r)
    else none
  | _ => none

/-- The next token. -/
def token? (cs : List Char) : Option (Token × List Char) :=
  match cs with
  | '&' :: '&' :: rest => some (.mark "&&", rest)
  | '|' :: '|' :: rest => some (.mark "||", rest)
  | ';' :: ';' :: _ => none
  | c :: rest =>
    if [';', '&', '|', '(', ')', '\n'].contains c then some (.mark (String.singleton c), rest)
    else match redirection? cs with
      | some found => some found
      | none =>
        if c = '<' ∨ c = '>' then none
        else (wordRest? false .empty cs).map fun (w, rest) => (.word w, rest)
  | [] => none

/-- Goes past a comment. -/
def skipComment (cs : List Char) : List Char := cs.dropWhile (· ≠ '\n')

/-- The tokens of a text. -/
def tokens? (cs : List Char) : Option (List Token) :=
  match cs with
  | [] => some []
  | c :: rest =>
    if c = ' ' ∨ c = '\t' then tokens? rest
    else if c = '#' then
      if _h : (skipComment rest).length < rest.length + 1 then tokens? (skipComment rest) else none
    else match token? (c :: rest) with
      | none => none
      | some (t, after) =>
        if _h : after.length < rest.length + 1 then (tokens? after).map (t :: ·) else none
termination_by cs.length

/-! ### Commands -/

/-- Where a stream is directed to. -/
structure Redirection where
  stream : Nat
  direction : Direction
  target : Word
  deriving Repr, DecidableEq

/-- A script. -/
inductive Script
  | simple (settings : List (String × Word)) (words : List Word) (redirections : List Redirection)
  /-- A script in brackets; in round ones nothing that it sets is kept. -/
  | group (isolated : Bool) (body : Script) (redirections : List Redirection)
  | pipe (first second : Script)
  | both (first second : Script)
  | either (first second : Script)
  | negate (body : Script)
  | sequence (first second : Script)
  | conditional (condition yes no : Script)
  deriving Repr

namespace Script

/-- The script that does nothing. -/
def nothing : Script := simple [] [] []

/-- The name and the value that a word sets a parameter to. -/
def setting? (w : Word) : Option (String × Word) :=
  let name := (w.pieces.takeWhile fun p =>
    (Word.plainChar? p).any isNamePart).filterMap Word.plainChar?
  match name.head?, w.pieces.drop name.length with
  | some c, .char '=' false :: rest =>
    if isNameStart c then some (String.ofList name, ⟨rest, true⟩) else none
  | _, _ => none

/-- Redirections, and what follows them. -/
def redirections? : List Token → Option (List Redirection × List Token)
  | .redirection stream direction :: .word target :: rest =>
    (redirections? rest).map fun (rs, after) => (⟨stream, direction, target⟩ :: rs, after)
  | .redirection _ _ :: _ => none
  | rest => some ([], rest)

/-- The rest of a simple command. Parameters are set in front of its first word only. -/
def simpleRest? (settings : List (String × Word)) (words : List Word)
    (redirections : List Redirection) : List Token → Option (Script × List Token)
  | .word w :: rest =>
    match if words.isEmpty then setting? w else none with
    | some s => simpleRest? (settings ++ [s]) words redirections rest
    | none => simpleRest? settings (words ++ [w]) redirections rest
  | .redirection stream direction :: .word target :: rest =>
    simpleRest? settings words (redirections ++ [⟨stream, direction, target⟩]) rest
  | .redirection _ _ :: _ => none
  | rest => some (simple settings words redirections, rest)

/-- A simple command, which may not be empty. -/
def simple? (ts : List Token) : Option (Script × List Token) :=
  match ts with
  | .word _ :: _ => simpleRest? [] [] [] ts
  | .redirection _ _ :: _ => simpleRest? [] [] [] ts
  | _ => none

/-- The reserved word that is next. -/
def reserved? : List Token → Option String
  | .word w :: _ => w.plain?
  | _ => none

/-- What follows a reserved word. -/
def expect? (name : String) (ts : List Token) : Option (List Token) :=
  if reserved? ts = some name then some (ts.drop 1) else none

/-- Goes past line ends. -/
def skipLineEnds : List Token → List Token
  | .mark "\n" :: rest => skipLineEnds rest
  | ts => ts

/-- Whether a list of commands ends here. -/
def listEnds (ts : List Token) : Bool :=
  ts.isEmpty || ts.head? == some (.mark ")")
    || ((reserved? ts).any ["\x7d", "then", "else", "elif", "fi"].contains)

/-- The words that begin what is not part of the language. -/
def isForeign (name : String) : Bool :=
  ["for", "while", "until", "case", "do", "done", "esac"].contains name

mutual

/-- Commands one after the other. The first number bounds the nesting of calls. -/
def list? : Nat → List Token → Option (Script × List Token)
  | 0, _ => none
  | fuel + 1, ts => do
    let (first, rest) ← chain? fuel (skipLineEnds ts)
    let more? := match rest with
      | .mark m :: more =>
        if m = ";" ∨ m = "&" ∨ m = "\n" then some (skipLineEnds more) else none
      | _ => none
    match more? with
    | none => pure (first, rest)
    | some more =>
      if listEnds more then pure (first, more)
      else do
        let (second, rest) ← list? fuel more
        pure (sequence first second, rest)

/-- Pipelines that depend on how the one before ended. -/
def chain? : Nat → List Token → Option (Script × List Token)
  | 0, _ => none
  | fuel + 1, ts => do
    let (first, rest) ← pipeline? fuel ts
    chainRest? fuel first rest

/-- The pipelines behind the first one. -/
def chainRest? : Nat → Script → List Token → Option (Script × List Token)
  | 0, _, _ => none
  | fuel + 1, first, ts =>
    match ts with
    | .mark "&&" :: rest => do
      let (second, rest) ← pipeline? fuel (skipLineEnds rest)
      chainRest? fuel (both first second) rest
    | .mark "||" :: rest => do
      let (second, rest) ← pipeline? fuel (skipLineEnds rest)
      chainRest? fuel (either first second) rest
    | rest => pure (first, rest)

/-- Commands of which each reads what the one before writes. -/
def pipeline? : Nat → List Token → Option (Script × List Token)
  | 0, _ => none
  | fuel + 1, ts =>
    match expect? "!" ts with
    | some rest => (pipeline? fuel rest).map fun (s, rest) => (negate s, rest)
    | none => do
      let (first, rest) ← command? fuel ts
      match rest with
      | .mark "|" :: rest => do
        let (second, rest) ← pipeline? fuel (skipLineEnds rest)
        pure (pipe first second, rest)
      | rest => pure (first, rest)

/-- A command. -/
def command? : Nat → List Token → Option (Script × List Token)
  | 0, _ => none
  | fuel + 1, ts =>
    match ts with
    | .mark "(" :: rest => do
      let (body, rest) ← list? fuel rest
      match rest with
      | .mark ")" :: rest => do
        let (rs, rest) ← redirections? rest
        pure (group true body rs, rest)
      | _ => none
    | ts =>
      match reserved? ts with
      | some "\x7b" => do
        let (body, rest) ← list? fuel (ts.drop 1)
        let (rs, rest) ← redirections? (← expect? "\x7d" rest)
        pure (group false body rs, rest)
      | some "if" => do
        let (body, rest) ← branches? fuel (ts.drop 1)
        let (rs, rest) ← redirections? rest
        pure (if rs.isEmpty then body else group false body rs, rest)
      | some name =>
        if isForeign name || listEnds ts then none else simple? ts
      | none => simple? ts

/-- A condition and the branches that follow it. -/
def branches? : Nat → List Token → Option (Script × List Token)
  | 0, _ => none
  | fuel + 1, ts => do
    let (condition, rest) ← list? fuel ts
    let (yes, rest) ← list? fuel (← expect? "then" rest)
    match reserved? rest with
    | some "elif" => do
      let (no, rest) ← branches? fuel (rest.drop 1)
      pure (conditional condition yes no, rest)
    | some "else" => do
      let (no, rest) ← list? fuel (rest.drop 1)
      pure (conditional condition yes no, ← expect? "fi" rest)
    | _ => pure (conditional condition yes nothing, ← expect? "fi" rest)

end

/-- The script of a text. -/
def parse? (text : String) : Option Script := do
  let ts := skipLineEnds (← tokens? text.toList)
  if ts.isEmpty then pure nothing
  else do
    let (s, rest) ← list? (8 * ts.length + 8) ts
    if rest.isEmpty then pure s else none

end Script

end Cartograph.Shell
