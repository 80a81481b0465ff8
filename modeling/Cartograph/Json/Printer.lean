import Cartograph.Decimal.Shortest
import Cartograph.Document
import Cartograph.Text.Quoted

/-!
# JSON text of a document

Two forms: `compact`, without any blank, and `pretty`, with one entry or member a line and two
spaces for each level; an empty list or mapping stays on its line in both. What JSON has no number
for is written as `null`.

An unquoted scalar is written as what it stands for on its own.
-/

namespace Cartograph.Json

open Decimal

/-- Numbers in JSON: at least one place, an exponent from `1e+16` on and below `0.0001`, and
    `null` for infinities and what is not a number. -/
def numberLayout : Layout := ⟨some (-4, 15), true, true, "null", "null"⟩

/-- The text of a number. -/
def number (f : Float) : String :=
  if f.isFinite then numberLayout.render f else "null"

/-- A character inside a string. -/
def escapeChar (c : Char) : String :=
  if c = '"' then "\\\""
  else if c = '\\' then "\\\\"
  else if c = '\n' then "\\n"
  else if c = '\r' then "\\r"
  else if c = '\t' then "\\t"
  else if c = '\x08' then "\\b"
  else if c = '\x0c' then "\\f"
  else if c.toNat < 32 then
    "\\u00" ++ (if c.toNat < 16 then "0" else "") ++ Text.hexDigits c.toNat
  else c.toString

/-- A text in quotation marks. -/
def string (s : String) : String :=
  "\"" ++ String.join (s.toList.map escapeChar) ++ "\""

/-- The text of a scalar; lists and mappings are not written here. -/
def scalar : Document → String
  | .null => "null"
  | .bool b => if b then "true" else "false"
  | .int i => toString i
  | .float f => number f
  | .text s => string s
  | _ => ""

mutual

/-- A document without any blank. -/
def compact : Document → String
  | .list items => "[" ++ ",".intercalate (compactItems items) ++ "]"
  | .fields entries => "\x7b" ++ ",".intercalate (compactEntries entries) ++ "\x7d"
  | .plain s => scalar (Document.ofPlain s)
  | d => scalar d

def compactItems : List Document → List String
  | [] => []
  | d :: ds => compact d :: compactItems ds

def compactEntries : List (Document.Key × Document) → List String
  | [] => []
  | (k, d) :: es => (string k.text ++ ":" ++ compact d) :: compactEntries es

end

/-- The blanks before a line of a level. -/
def indent (level : Nat) : String := String.ofList (List.replicate (2 * level) ' ')

/-- The parts of a list or mapping on lines of their own, between the brackets. -/
def block (left right : String) (level : Nat) (parts : List String) : String :=
  if parts.isEmpty then left ++ right
  else left ++ "\n" ++ ",\n".intercalate (parts.map (indent (level + 1) ++ ·)) ++ "\n"
    ++ indent level ++ right

mutual

/-- A document at a level, its first line without indentation. -/
def prettyAt (level : Nat) : Document → String
  | .list items => block "[" "]" level (prettyItems level items)
  | .fields entries => block "\x7b" "\x7d" level (prettyEntries level entries)
  | .plain s => scalar (Document.ofPlain s)
  | d => scalar d

def prettyItems (level : Nat) : List Document → List String
  | [] => []
  | d :: ds => prettyAt (level + 1) d :: prettyItems level ds

def prettyEntries (level : Nat) : List (Document.Key × Document) → List String
  | [] => []
  | (k, d) :: es => (string k.text ++ ": " ++ prettyAt (level + 1) d) :: prettyEntries level es

end

/-- A document on several lines. -/
def pretty (d : Document) : String := prettyAt 0 d

end Cartograph.Json
