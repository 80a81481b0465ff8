import Cartograph.Decimal.Fixed
import Cartograph.Expression.Obstacle
import Cartograph.Regex.Replace
import Cartograph.Value

/-!
# The functions of the expression language

What a call computes from the values of its arguments, none of which holds a placeholder
(`callFunction`). The names that decide for themselves which arguments to evaluate, `try` and `can`,
are not among them.

Numbers of both kinds compare by value (`sameValue`), and a number that comes out whole is an
integer as long as it is exact (`ofNumber`).
-/

namespace Cartograph.Expression

/-- The result of a function: a value or an obstacle. -/
abbrev Outcome (α : Type) := Except Obstacle α

/-! ### Values -/

/-- A number as a value: an integer if it is whole and below `9 * 10 ^ 15` in magnitude. -/
def ofNumber (f : Float) : Value :=
  if Decimal.isWhole f && f.abs < 9.0e15 then .int (Decimal.truncate f) else .float f

mutual

/-- Whether two values are the same, numbers of both kinds by their value. -/
def sameValue : Value → Value → Bool
  | .null, .null => true
  | .bool a, .bool b => a == b
  | .int a, .int b => Decimal.ofInt a == Decimal.ofInt b
  | .int a, .float b => Decimal.ofInt a == b
  | .float a, .int b => a == Decimal.ofInt b
  | .float a, .float b => a == b
  | .text a, .text b => a == b
  | .unresolved a, .unresolved b => a == b
  | .list a, .list b => sameItems a b
  | .map a, .map b => sameEntries a b
  | _, _ => false

/-- Whether two lists have the same members. -/
def sameItems : List Value → List Value → Bool
  | [], [] => true
  | a :: as, b :: bs => sameValue a b && sameItems as bs
  | _, _ => false

/-- Whether two maps have the same entries. -/
def sameEntries : List (String × Value) → List (String × Value) → Bool
  | [], [] => true
  | (j, a) :: as, (k, b) :: bs => j == k && sameValue a b && sameEntries as bs
  | _, _ => false

end

/-- The value as the key of a map. -/
def keyText : Value → Outcome String
  | .text s => .ok s
  | .int i => .ok (Value.int i).toText
  | .float f => .ok (Value.float f).toText
  | .bool b => .ok (Value.bool b).toText
  | v => .error (.notAKey v.typeName)

/-- The members, each once. -/
def distinct (items : List Value) : List Value :=
  (items.foldl (fun out v => if out.any (sameValue · v) then out else v :: out) []).reverse

/-- The members of a set: each once and, if all are texts, in order. -/
def setOf (items : List Value) : List Value :=
  let out := distinct items
  match out.mapM Value.asText? with
  | some texts => (Keyed.keySet texts).map .text
  | none => out

mutual

/-- The members of lists in lists, at any depth. -/
def flattenValue : Value → List Value
  | .list items => flattenItems items
  | .null => [.null]
  | .bool b => [.bool b]
  | .int i => [.int i]
  | .float f => [.float f]
  | .text s => [.text s]
  | .unresolved e => [.unresolved e]
  | .map es => [.map es]

/-- The members of all lists among the members. -/
def flattenItems : List Value → List Value
  | [] => []
  | v :: vs => flattenValue v ++ flattenItems vs

end

/-! ### Arguments -/

/-- Any count of arguments. -/
def anyCount : Nat := 18446744073709551615

/-- A list as an argument. -/
def listArg (name : String) (v : Value) : Outcome (List Value) :=
  match v with
  | .list items => .ok items
  | v => .error (.argumentType name "list" v.typeName)

/-- A map as an argument. -/
def mapArg (name : String) (v : Value) : Outcome Attributes :=
  match v with
  | .map entries => .ok entries
  | v => .error (.argumentType name "map" v.typeName)

/-- A text as an argument: numbers and truth values count. -/
def textArg (name : String) (v : Value) : Outcome String :=
  match v with
  | .text s => .ok s
  | .int i => .ok (Value.int i).toText
  | .float f => .ok (Value.float f).toText
  | .bool b => .ok (Value.bool b).toText
  | v => .error (.argumentType name "string" v.typeName)

/-- A number as an argument: the text of a number counts. -/
def numberArg (name : String) (v : Value) : Outcome Float :=
  match v.asFloat? with
  | some f => .ok f
  | none => .error (.argumentType name "number" v.typeName)

/-! ### Texts -/

/-- The pieces of a text between separators; `piece` (in reverse) is the piece so far. -/
def splitAt (separator piece cs : List Char) : List (List Char) :=
  match cs with
  | [] => [piece.reverse]
  | c :: rest =>
    if separator ≠ [] ∧ separator.isPrefixOf (c :: rest) then
      let after := (c :: rest).drop separator.length
      if _h : after.length < rest.length + 1 then
        piece.reverse :: splitAt separator [] after
      else [piece.reverse]
    else splitAt separator (c :: piece) rest
termination_by cs.length
decreasing_by
  · exact _h
  · simp

/-- The pieces of a text between separators. An empty separator stands between all characters and at
    both ends. -/
def splitText (separator text : String) : List String :=
  if separator = "" then "" :: text.toList.map Char.toString ++ [""]
  else (splitAt separator.toList [] text.toList).map String.ofList

/-- A text with all occurrences of another replaced. -/
def replaceText (text search new : String) : String := new.intercalate (splitText search text)

/-- The expression between the slashes of a search text, if it is written so. -/
def regexBody? (search : String) : Option String :=
  match search.toList with
  | '/' :: rest =>
    if rest.getLast? = some '/' then some (String.ofList rest.dropLast) else none
  | _ => none

/-- The precision of a verb behind a point, and what follows it. -/
def precision? : List Char → Option Nat × List Char
  | '.' :: rest =>
    (Decimal.readNat? (String.ofList (rest.takeWhile Char.isDigit)), rest.dropWhile Char.isDigit)
  | cs => (none, cs)

/-- What a verb makes of an argument. -/
def formatVerb (verb : Option Char) (precision : Option Nat) (v : Value) : Outcome String :=
  match verb with
  | some 's' => .ok v.toText
  | some 'v' => .ok v.toText
  | some 'q' => .ok (Text.quote v.toText)
  | some 'd' => (numberArg "format" v).map fun f => toString (Decimal.truncate f)
  | some 'f' => (numberArg "format" v).map (Decimal.fixed (precision.getD 6))
  | verb => .error (.unsupportedVerb verb)

/-- A format with its verbs replaced by the arguments in turn. -/
def formatText (spec : List Char) (args : List Value) : Outcome String :=
  match spec with
  | [] => .ok ""
  | c :: rest =>
    if c ≠ '%' then (formatText rest args).map (c.toString ++ ·)
    else
      let (precision, more) := precision? rest
      let after := more.tail
      if _h : after.length < rest.length + 1 then
        if more.head? = some '%' then (formatText after args).map ("%" ++ ·)
        else
          match args with
          | [] => .error .tooFewArguments
          | v :: others => do
            let s ← formatVerb more.head? precision v
            let t ← formatText after others
            pure (s ++ t)
      else .error .tooFewArguments
termination_by spec.length
decreasing_by
  · simp
  · exact _h
  · exact _h

/-! ### Numbers -/

/-- The numbers from `x` to before `bound` in steps, at most `n` of them. -/
def rangeFrom (bound step x : Float) : Nat → Outcome (List Value)
  | 0 =>
    if (0 < step && x < bound) || (step < 0 && bound < x) then .error .tooManyElements
    else .ok []
  | n + 1 =>
    if (0 < step && x < bound) || (step < 0 && bound < x) then
      (rangeFrom bound step (x + step) n).map (ofNumber x :: ·)
    else .ok []

/-- How many numbers a range may have. -/
def rangeLimit : Nat := 1024

/-- The range between bounds in steps. -/
def range : List Float → Outcome (List Value)
  | [bound] => rangeFrom bound 1 0 rangeLimit
  | [start, bound] => rangeFrom bound (if start ≤ bound then 1 else -1) start rangeLimit
  | [start, bound, step] =>
    if step == 0 then .error .zeroStep else rangeFrom bound step start rangeLimit
  | _ => .ok []

/-! ### Calls -/

/-- The functions of one argument. -/
def callUnary? (name : String) : Option (Value → Outcome Value) :=
  match name with
  | "length" => some fun
    | .list items => .ok (.int (Decimal.ofSize items.length))
    | .map entries => .ok (.int (Decimal.ofSize entries.length))
    | .text s => .ok (.int (Decimal.ofSize s.length))
    | v => .error (.lengthOf v.typeName)
  | "keys" => some fun v => (mapArg name v).map fun es => .list (es.map fun e => .text e.1)
  | "values" => some fun v => (mapArg name v).map fun es => .list (es.map (·.2))
  | "tolist" => some fun v => (listArg name v).map .list
  | "toset" => some fun v => (listArg name v).map fun items => .list (setOf items)
  | "tomap" => some fun v => (mapArg name v).map .map
  | "tostring" => some fun
    | .null => .ok .null
    | v => (textArg name v).map .text
  | "tonumber" => some fun
    | .null => .ok .null
    | v => (numberArg name v).map ofNumber
  | "upper" => some fun v => (textArg name v).map fun s => .text (Text.upper s)
  | "lower" => some fun v => (textArg name v).map fun s => .text (Text.lower s)
  | "flatten" => some fun v => (listArg name v).map fun items => .list (flattenItems items)
  | "distinct" => some fun v => (listArg name v).map fun items => .list (distinct items)
  | _ => none

/-- The functions of two arguments. -/
def callBinary? (name : String) : Option (Value → Value → Outcome Value) :=
  match name with
  | "element" => some fun list index => do
    let items ← listArg name list
    if items = [] then .error .emptyElement
    else
      let i := Decimal.truncate (← numberArg name index)
      pure (items.getD (i % items.length).toNat .null)
  | "split" => some fun separator text => do
    let separator ← textArg name separator
    let text ← textArg name text
    pure (.list ((if text = "" then [""] else splitText separator text).map .text))
  | "contains" => some fun list v =>
    (listArg name list).map fun items => .bool (items.any (sameValue · v))
  | _ => none

/-- Replaces in a text, by a regular expression if the search text is one. -/
def replace (name : String) (text search new : Value) : Outcome Value := do
  let text ← textArg name text
  let search ← textArg name search
  let new ← textArg name new
  match regexBody? search with
  | none => pure (.text (replaceText text search new))
  | some body =>
    match Regex.parse? body with
    | none => .error .malformedRegex
    | some r => pure (.text (r.program.replaceAll text new))

/-- The greatest or smallest of the arguments. -/
def extreme (name : String) (better : Float → Float → Float) (args : List Value) :
    Outcome Value := do
  let ns ← args.mapM (numberArg name)
  match ns with
  | [] => pure (ofNumber 0)
  | n :: rest => pure (ofNumber (rest.foldl better n))

/-- The functions with a varying count of arguments, which has been checked. -/
def callVariadic (name : String) (args : List Value) : Outcome Value :=
  match name, args with
  | "lookup", map :: key :: rest => do
    let entries ← mapArg name map
    let key ← textArg name key
    match Keyed.find? key entries, rest with
    | some v, _ => pure v
    | none, default :: _ => pure default
    | none, [] => .error (.lookupKey key)
  | "concat", args => (args.mapM (listArg name)).map fun lists => .list lists.flatten
  | "join", separator :: lists => do
    let separator ← textArg name separator
    let parts ← lists.mapM fun l => do (← listArg name l).mapM (textArg name)
    pure (.text (separator.intercalate parts.flatten))
  | "max", args => extreme name Decimal.greater args
  | "min", args => extreme name Decimal.smaller args
  | "format", spec :: args => do
    let spec ← textArg name spec
    (formatText spec.toList args).map .text
  | "coalesce", args =>
    match args.find? fun v => !v.isNull && v.asText? != some "" with
    | some v => .ok v
    | none => .error .nothingToCoalesce
  | "merge", args => do
    let maps ← (args.filter fun v => !v.isNull).mapM (mapArg name)
    pure (.map (maps.foldl Keyed.insertAll []))
  | "range", args => do
    let ns ← args.mapM (numberArg name)
    (range ns).map .list
  | "replace", [text, search, new] => replace name text search new
  | name, _ => .error (.unsupportedFunction name)

/-- The least and greatest count of arguments of a function with a varying count. -/
def arityOf? (name : String) : Option (Nat × Nat) :=
  match name with
  | "lookup" => some (2, 3)
  | "join" => some (2, anyCount)
  | "max" => some (1, anyCount)
  | "min" => some (1, anyCount)
  | "format" => some (1, anyCount)
  | "range" => some (1, 3)
  | "replace" => some (3, 3)
  | _ => none

/-- The value of a call. -/
def callFunction (name : String) (args : List Value) : Outcome Value :=
  match callUnary? name, callBinary? name with
  | some f, _ =>
    match args with
    | [a] => f a
    | _ => .error (.arity name 1 1 args.length)
  | none, some f =>
    match args with
    | [a, b] => f a b
    | _ => .error (.arity name 2 2 args.length)
  | none, none =>
    match arityOf? name with
    | none => callVariadic name args
    | some (least, most) =>
      if args.length < least ∨ most < args.length then
        .error (.arity name least most args.length)
      else callVariadic name args

end Cartograph.Expression
