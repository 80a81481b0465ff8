import Cartograph.Regex
import Cartograph.Document

/-!
# Reading regular expressions

The text of an expression is read from left to right by a machine that keeps the groups still open
on a stack (`Frame`). Each step takes an atom, an operator or the edge of a group off the front
(`step?`).

Understood are literals and their escapes, the dot, classes in brackets with nesting and set
operators, named classes, anchors and word boundaries, repetitions with their lazy forms, groups
with and without a name, and the flags `i`, `m`, `s`, `x` and `U`. Back references and conditions
on what surrounds a match beyond the next character are refused.
-/

namespace Cartograph.Regex

/-- The flags in force. -/
structure Flags where
  anyCase : Bool
  multiLine : Bool
  dotAll : Bool
  verbose : Bool
  swapGreed : Bool
  deriving Repr

/-- A group still open: the flags around it, its number if it captures, the alternatives before the
    current one (in reverse), and the members of the current one (in reverse). -/
structure Frame where
  outer : Flags
  index : Option Nat
  alternatives : List Regex
  members : List Regex

/-- What has been read of an expression. -/
structure Reading where
  stack : List Frame
  top : Frame
  flags : Flags
  groups : Nat
  names : List (String × Nat)

/-- An expression with the number of its groups and the names of some of them. -/
structure Compiled where
  regex : Regex
  groups : Nat
  names : List (String × Nat)

/-! ### Characters and classes -/

/-- A set with the flag for case applied. -/
def Flags.fold (f : Flags) (s : CharSet) : CharSet := if f.anyCase then .anyCase s else s

/-- A literal character. -/
def literal (c : Char) : CharSet := .range c c

/-- Any character. -/
def anyChar : CharSet := .not .none

/-- The class named by a letter behind a backslash. -/
def classOf? : Char → Option CharSet
  | 'd' => some (.kind .digit)
  | 'D' => some (.not (.kind .digit))
  | 's' => some (.kind .blank)
  | 'S' => some (.not (.kind .blank))
  | 'w' => some (.kind .word)
  | 'W' => some (.not (.kind .word))
  | _ => none

/-- The class of a Unicode property. -/
def propertyOf? (name : String) : Option Kind :=
  if name = "L" ∨ name = "Letter" then some .letter
  else if name = "N" ∨ name = "Number" then some .numeric
  else if name = "Nd" then some .digit
  else if name = "M" ∨ name = "Mark" then some .mark
  else if name = "Alphabetic" ∨ name = "alphabetic" then some .alphabetic
  else if name = "White_Space" ∨ name = "whitespace" then some .blank
  else none

/-- The property named behind `\p`, and what follows it. -/
def property? : List Char → Option (CharSet × List Char)
  | '\x7b' :: rest =>
    let name := rest.takeWhile (· ≠ '\x7d')
    match rest.dropWhile (· ≠ '\x7d') with
    | _ :: after =>
      match name with
      | '^' :: name => (propertyOf? (String.ofList name)).map fun k => (.not (.kind k), after)
      | name => (propertyOf? (String.ofList name)).map fun k => (.kind k, after)
    | [] => none
  | c :: rest => (propertyOf? c.toString).map fun k => (.kind k, rest)
  | [] => none

/-- A code point given by its digits to base 16. -/
def codePoint? (ds : List Char) : Option Char :=
  (Document.natOfDigits? 16 ds).bind fun n =>
    if n.isValidChar then some (Char.ofNat n) else none

/-- A code point behind `\x`, `\u` or `\U`, with `count` digits or in braces. -/
def hexEscape? (count : Nat) : List Char → Option (Char × List Char)
  | '\x7b' :: rest =>
    match rest.dropWhile (· ≠ '\x7d') with
    | _ :: after => (codePoint? (rest.takeWhile (· ≠ '\x7d'))).map (·, after)
    | [] => none
  | cs => if cs.length < count then none else (codePoint? (cs.take count)).map (·, cs.drop count)

/-- A single character behind a backslash, and what follows it. -/
def escape? : List Char → Option (Char × List Char)
  | 'a' :: rest => some ('\x07', rest)
  | 'f' :: rest => some ('\x0c', rest)
  | 't' :: rest => some ('\t', rest)
  | 'n' :: rest => some ('\n', rest)
  | 'r' :: rest => some ('\r', rest)
  | 'v' :: rest => some ('\x0b', rest)
  | 'x' :: rest => hexEscape? 2 rest
  | 'u' :: rest => hexEscape? 4 rest
  | 'U' :: rest => hexEscape? 8 rest
  | c :: rest =>
    if c.toNat < 128 ∧ !c.isAlphanum ∧ c ≠ '<' ∧ c ≠ '>' then some (c, rest) else none
  | [] => none

/-- What a backslash in a class introduces: a class, or a character. -/
def classEscape? : List Char → Option ((CharSet ⊕ Char) × List Char)
  | 'p' :: rest => (property? rest).map fun (s, r) => (.inl s, r)
  | 'P' :: rest => (property? rest).map fun (s, r) => (.inl (.not s), r)
  | c :: rest =>
    match classOf? c with
    | some s => some (.inl s, rest)
    | none => (escape? (c :: rest)).map fun (d, r) => (.inr d, r)
  | [] => none

/-- The ASCII classes with a name between colons. -/
def asciiClass? (name : String) : Option CharSet :=
  let r (a b : Char) := CharSet.range a b
  let alpha := CharSet.union (r 'a' 'z') (r 'A' 'Z')
  let punct := CharSet.union (.union (r '!' '/') (r ':' '@'))
    (.union (r '[' (Char.ofNat 96)) (r '\x7b' '~'))
  if name = "alpha" then some alpha
  else if name = "digit" then some (r '0' '9')
  else if name = "alnum" then some (.union alpha (r '0' '9'))
  else if name = "lower" then some (r 'a' 'z')
  else if name = "upper" then some (r 'A' 'Z')
  else if name = "word" then some (.union (.union alpha (r '0' '9')) (literal '_'))
  else if name = "xdigit" then some (.union (r '0' '9') (.union (r 'a' 'f') (r 'A' 'F')))
  else if name = "space" then some (.union (r '\t' '\r') (literal ' '))
  else if name = "blank" then some (.union (literal '\t') (literal ' '))
  else if name = "cntrl" then some (.union (r '\x00' '\x1f') (literal '\x7f'))
  else if name = "punct" then some punct
  else if name = "graph" then some (r '!' '~')
  else if name = "print" then some (r ' ' '~')
  else if name = "ascii" then some (r '\x00' '\x7f')
  else none

/-- A class in brackets with a name between colons, of which `[:` has been read. -/
def namedClass? (cs : List Char) : Option (CharSet × List Char) :=
  let name := cs.takeWhile (· ≠ ':')
  match cs.dropWhile (· ≠ ':') with
  | ':' :: ']' :: rest =>
    match name with
    | '^' :: name => (asciiClass? (String.ofList name)).map fun s => (.not s, rest)
    | name => (asciiClass? (String.ofList name)).map (·, rest)
  | _ => none

/-- An operator between two sets inside a class. -/
inductive SetOperator
  | both
  | without
  | either

/-- Combines the sets on the two sides of an operator. -/
def SetOperator.apply : SetOperator → CharSet → CharSet → CharSet
  | both, a, b => .both a b
  | without, a, b => .without a b
  | either, a, b => .either a b

/-- A class still open: whether it is negated, the operand and operator before the current operand,
    and the current operand. -/
structure ClassFrame where
  negated : Bool
  pending : Option (CharSet × SetOperator)
  current : CharSet

/-- The set of a class at its end. -/
def ClassFrame.close (flags : Flags) (f : ClassFrame) : CharSet :=
  let s := match f.pending with
    | some (a, op) => op.apply (flags.fold a) (flags.fold f.current)
    | none => flags.fold f.current
  if f.negated then .not s else s

/-- Starts the next operand. -/
def ClassFrame.operator (f : ClassFrame) (op : SetOperator) : ClassFrame :=
  let left := match f.pending with
    | some (a, before) => before.apply a f.current
    | none => f.current
  { f with pending := some (left, op), current := .none }

/-- Adds to the current operand. -/
def ClassFrame.add (f : ClassFrame) (s : CharSet) : ClassFrame :=
  { f with current := .union f.current s }

/-- The dashes at the front of a class, which stand for themselves; if there are none, a closing
    bracket there stands for itself. -/
def leading (f : ClassFrame) : List Char → ClassFrame × List Char
  | '-' :: rest =>
    let dashes := ('-' :: rest).takeWhile (· = '-')
    (f.add (literal '-'), ('-' :: rest).drop dashes.length)
  | ']' :: rest => (f.add (literal ']'), rest)
  | cs => (f, cs)

/-- Opens a class whose bracket has been read. -/
def openClass : List Char → ClassFrame × List Char
  | '^' :: rest => leading ⟨true, none, .none⟩ rest
  | rest => leading ⟨false, none, .none⟩ rest

/-- One character or named class of a class, and what follows it. -/
def classAtom? : List Char → Option ((CharSet ⊕ Char) × List Char)
  | '\\' :: rest => classEscape? rest
  | c :: rest => some (.inr c, rest)
  | [] => none

/-- A member of a class: a range, a character or a named class. -/
def classMember? (cs : List Char) : Option (CharSet × List Char) := do
  let (a, rest) ← classAtom? cs
  match a with
  | .inl s => pure (s, rest)
  | .inr c =>
    match rest with
    | '-' :: ']' :: _ => pure (literal c, rest)
    | '-' :: '-' :: _ => pure (literal c, rest)
    | '-' :: after => do
      let (b, rest) ← classAtom? after
      match b with
      | .inl _ => none
      | .inr d => if c ≤ d then pure (.range c d, rest) else none
    | _ => pure (literal c, rest)

/-- Reads the innermost open class, around which the classes `outer` are open, up to the end of the
    outermost. -/
def classRest? (flags : Flags) (outer : List ClassFrame) (f : ClassFrame) (cs : List Char) :
    Option (CharSet × List Char) :=
  let goOn (outer : List ClassFrame) (f : ClassFrame) (rest : List Char) :=
    if _h : rest.length < cs.length then classRest? flags outer f rest else none
  match cs with
  | [] => none
  | ']' :: rest =>
    match outer with
    | [] => some (f.close flags, rest)
    | g :: outer => goOn outer (g.add (f.close flags)) rest
  | '[' :: ':' :: rest =>
    match namedClass? rest with
    | some (s, rest) => goOn outer (f.add s) rest
    | none =>
      let (g, rest) := openClass (':' :: rest)
      goOn (f :: outer) g rest
  | '[' :: rest =>
    let (g, rest) := openClass rest
    goOn (f :: outer) g rest
  | '&' :: '&' :: rest => goOn outer (f.operator .both) rest
  | '-' :: '-' :: rest => goOn outer (f.operator .without) rest
  | '~' :: '~' :: rest => goOn outer (f.operator .either) rest
  | c :: rest =>
    if flags.verbose && Text.isBlank c then goOn outer f rest
    else
      match classMember? (c :: rest) with
      | some (s, rest) => goOn outer (f.add s) rest
      | none => none
termination_by cs.length

/-! ### Repetitions -/

/-- The bounds of a counted repetition whose brace has been read, and what follows them. -/
def bounds? (cs : List Char) : Option ((Nat × Option Nat) × List Char) :=
  let body := String.ofList (cs.takeWhile (· ≠ '\x7d'))
  match cs.dropWhile (· ≠ '\x7d') with
  | [] => none
  | _ :: rest =>
    let number (s : String) := Decimal.readDigits? (Text.trimChars s.toList)
    match body.toList.splitOn ',' with
    | [a] => (number (String.ofList a)).map fun n => ((n, some n), rest)
    | [a, b] =>
      let low := if Text.trimChars a = [] then some 0 else number (String.ofList a)
      let high := if Text.trimChars b = [] then some none else (number (String.ofList b)).map some
      match low, high with
      | some n, some none => if Text.trimChars a = [] then none else some ((n, none), rest)
      | some n, some (some m) => if n ≤ m then some ((n, some m), rest) else none
      | _, _ => none
    | _ => none

/-- The greatest bound of a counted repetition. -/
def greatestBound : Nat := 1000

/-- Repeats the last member. -/
def Reading.repeated? (r : Reading) (least : Nat) (most : Option Nat) (rest : List Char) :
    Option (Reading × List Char) :=
  match r.top.members with
  | [] => none
  | a :: members =>
    if greatestBound < most.getD least then none
    else
      let (lazy, rest) := match rest with
        | '?' :: rest => (true, rest)
        | rest => (false, rest)
      let repeated := .times a least most (lazy == r.flags.swapGreed)
      let top := { r.top with members := repeated :: members }
      some ({ r with top := top }, rest)

/-! ### Groups -/

/-- The members of an alternative in order. -/
def sequence : List Regex → Regex
  | [] => .empty
  | [a] => a
  | a :: rest => .seq (sequence rest) a

/-- The alternatives, of which the last read comes first. -/
def oneOf : Regex → List Regex → Regex
  | a, [] => a
  | a, b :: rest => oneOf (.alt b a) rest

/-- The expression of a group at its end. -/
def Frame.close (f : Frame) : Regex :=
  let body := oneOf (sequence f.members) f.alternatives
  match f.index with
  | some i => .group i body
  | none => body

/-- Adds a member to the current alternative. -/
def Reading.add (r : Reading) (a : Regex) : Reading :=
  { r with top := { r.top with members := a :: r.top.members } }

/-- Opens a group. -/
def Reading.enter (r : Reading) (index : Option Nat) (flags : Flags) : Reading :=
  { r with stack := r.top :: r.stack, top := ⟨r.flags, index, [], []⟩, flags := flags }

/-- Opens a group that captures. -/
def Reading.capture (r : Reading) : Reading :=
  { r.enter (some (r.groups + 1)) r.flags with groups := r.groups + 1 }

/-- Whether a character may stand in the name of a group, at the front or later. -/
def isNameStart (c : Char) : Bool := c == '_' || Text.isAlphabetic c
def isNamePart (c : Char) : Bool :=
  c == '_' || c == '.' || c == '[' || c == ']' || Text.isAlphanumeric c

/-- Opens a group with a name, of which the angle bracket has been read. -/
def Reading.named? (r : Reading) (cs : List Char) : Option (Reading × List Char) :=
  let name := cs.takeWhile (· ≠ '>')
  match name, cs.dropWhile (· ≠ '>') with
  | c :: more, _ :: rest =>
    let text := String.ofList name
    if isNameStart c && more.all isNamePart && !(r.names.any (·.1 == text)) then
      some ({ r.capture with names := r.names ++ [(text, r.groups + 1)] }, rest)
    else none
  | _, _ => none

/-- Sets or clears a flag. -/
def Flags.set? (f : Flags) (on : Bool) : Char → Option Flags
  | 'i' => some { f with anyCase := on }
  | 'm' => some { f with multiLine := on }
  | 's' => some { f with dotAll := on }
  | 'x' => some { f with verbose := on }
  | 'U' => some { f with swapGreed := on }
  | 'u' => some f
  | _ => none

/-- The flags set behind `(?`, up to the character that ends them. -/
def flagRun? (f : Flags) (on : Bool) : List Char → Option (Flags × Char × List Char)
  | ')' :: rest => some (f, ')', rest)
  | ':' :: rest => some (f, ':', rest)
  | '-' :: rest => if on then flagRun? f false rest else none
  | c :: rest => (f.set? on c).bind fun g => flagRun? g on rest
  | [] => none

/-- What begins with an opening parenthesis, which has been read. -/
def Reading.open? (r : Reading) : List Char → Option (Reading × List Char)
  | '?' :: ':' :: rest => some (r.enter none r.flags, rest)
  | '?' :: 'P' :: '<' :: rest => r.named? rest
  | '?' :: '<' :: c :: rest => if c = '=' ∨ c = '!' then none else r.named? (c :: rest)
  | '?' :: rest =>
    if rest.head? = some ')' then none
    else (flagRun? r.flags true rest).map fun (flags, ending, rest) =>
      if ending = ':' then (r.enter none flags, rest) else ({ r with flags := flags }, rest)
  | rest => some (r.capture, rest)

/-- Closes the innermost group. -/
def Reading.close? (r : Reading) : Option Reading :=
  match r.stack with
  | [] => none
  | f :: stack =>
    some { r with
      stack := stack
      top := { f with members := r.top.close :: f.members }
      flags := r.top.outer }

/-- Ends an alternative. -/
def Reading.alternative (r : Reading) : Reading :=
  { r with top := { r.top with
      alternatives := sequence r.top.members :: r.top.alternatives
      members := [] } }

/-- What a backslash outside a class introduces. -/
def Reading.escaped? (r : Reading) : List Char → Option (Reading × List Char)
  | 'A' :: rest => some (r.add (.look .textStart), rest)
  | 'z' :: rest => some (r.add (.look .textEnd), rest)
  | 'b' :: rest => some (r.add (.look .wordBoundary), rest)
  | 'B' :: rest => some (r.add (.look .noWordBoundary), rest)
  | '<' :: rest => some (r.add (.look .wordStart), rest)
  | '>' :: rest => some (r.add (.look .wordEnd), rest)
  | cs => (classEscape? cs).map fun (what, rest) =>
    match what with
    | .inl s => (r.add (.one s), rest)
    | .inr c => (r.add (.one (r.flags.fold (literal c))), rest)

/-- Takes one element off the front. -/
def Reading.step? (r : Reading) : List Char → Option (Reading × List Char)
  | [] => none
  | '(' :: rest => r.open? rest
  | ')' :: rest => r.close?.map (·, rest)
  | '|' :: rest => some (r.alternative, rest)
  | '*' :: rest => r.repeated? 0 none rest
  | '+' :: rest => r.repeated? 1 none rest
  | '?' :: rest => r.repeated? 0 (some 1) rest
  | '\x7b' :: rest => (bounds? rest).bind fun ((n, m), rest) => r.repeated? n m rest
  | '[' :: rest =>
    let (f, rest) := openClass rest
    (classRest? r.flags [] f rest).map fun (s, rest) => (r.add (.one s), rest)
  | '\\' :: rest => r.escaped? rest
  | '.' :: rest =>
    some (r.add (.one (if r.flags.dotAll then anyChar else .not (literal '\n'))), rest)
  | '^' :: rest => some (r.add (.look (if r.flags.multiLine then .lineStart else .textStart)), rest)
  | '$' :: rest => some (r.add (.look (if r.flags.multiLine then .lineEnd else .textEnd)), rest)
  | c :: rest =>
    if r.flags.verbose && Text.isBlank c then some (r, rest)
    else if r.flags.verbose && c == '#' then some (r, rest.dropWhile (· ≠ '\n'))
    else some (r.add (.one (r.flags.fold (literal c))), rest)

/-- Reads to the end. -/
def Reading.finish? (r : Reading) (cs : List Char) : Option Reading :=
  if cs = [] then some r
  else
    match r.step? cs with
    | none => none
    | some (next, rest) => if _h : rest.length < cs.length then next.finish? rest else none
termination_by cs.length

/-- The expression of a text, if it is one. -/
def parse? (s : String) : Option Compiled :=
  let flags : Flags := ⟨false, false, false, false, false⟩
  match Reading.finish? ⟨[], ⟨flags, none, [], []⟩, flags, 0, []⟩ s.toList with
  | some ⟨[], top, _, groups, names⟩ => some ⟨top.close, groups, names⟩
  | _ => none

end Cartograph.Regex
