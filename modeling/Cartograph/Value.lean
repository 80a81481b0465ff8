import Cartograph.Json.Printer
import Cartograph.Keyed

/-!
# Attribute values

The value of an attribute, as written in a plan (texts may then hold expressions) or as resolved. An
expression that could not be reduced leaves a placeholder with its text behind
(`Value.unresolved`).

Integers have 64 bits; every other number is a float. Maps are sorted lists, so equal values print
equally. A value converts to a number or truth value where its text or fraction allows it
(`asInt?`, `asFloat?`, `asBool?`).
-/

namespace Cartograph

/-- The value of an attribute. -/
inductive Value
  | null
  | bool (b : Bool)
  | int (i : Int)
  | float (f : Float)
  | text (s : String)
  | list (items : List Value)
  | unresolved (expression : String)
  | map (entries : List (String × Value))
  deriving Inhabited

/-- Values by name, sorted. -/
abbrev Attributes := List (String × Value)

namespace Value

/-- The text of a value that is one. -/
def asText? : Value → Option String
  | text s => some s
  | _ => none

/-- The integer that a value stands for: a whole float and the text of an integer count. -/
def asInt? : Value → Option Int
  | int i => some i
  | float f => if Decimal.isWhole f then some (Decimal.truncate f) else none
  | text s => Decimal.readInt? (Text.trim s)
  | _ => none

/-- The number that a value stands for: the text of a number counts. -/
def asFloat? : Value → Option Float
  | int i => some (Decimal.ofInt i)
  | float f => some f
  | text s => Decimal.readFloat? (Text.trim s)
  | _ => none

/-- The truth value that a value stands for: the words `true` and `false` count. -/
def asBool? : Value → Option Bool
  | bool b => some b
  | text s => if s = "true" then some true else if s = "false" then some false else none
  | _ => none

/-- The members of a list. -/
def asList? : Value → Option (List Value)
  | list items => some items
  | _ => none

/-- The entries of a map. -/
def asMap? : Value → Option Attributes
  | map entries => some entries
  | _ => none

/-- Whether the value is missing. -/
def isNull : Value → Bool
  | null => true
  | _ => false

/-- The name of a value's type in messages. -/
def typeName : Value → String
  | null => "null"
  | bool _ => "bool"
  | int _ => "number"
  | float _ => "number"
  | text _ => "string"
  | list _ => "list"
  | unresolved _ => "unresolved"
  | map _ => "map"

mutual

/-- Whether a value is a placeholder or holds one at any depth. -/
def hasUnresolved : Value → Bool
  | unresolved _ => true
  | list items => anyUnresolved items
  | map entries => anyUnresolvedEntry entries
  | _ => false

def anyUnresolved : List Value → Bool
  | [] => false
  | v :: vs => hasUnresolved v || anyUnresolved vs

def anyUnresolvedEntry : List (String × Value) → Bool
  | [] => false
  | (_, v) :: es => hasUnresolved v || anyUnresolvedEntry es

end

mutual

/-- All texts in a value, from left to right. -/
def texts : Value → List String
  | text s => [s]
  | list items => textsOfList items
  | map entries => textsOfEntries entries
  | _ => []

def textsOfList : List Value → List String
  | [] => []
  | v :: vs => texts v ++ textsOfList vs

def textsOfEntries : List (String × Value) → List String
  | [] => []
  | (_, v) :: es => texts v ++ textsOfEntries es

end

/-! ### Documents -/

/-- The key of the mapping that stands for a placeholder. -/
def placeholderKey : String := "$unresolved"

/-- The integers that fit. -/
def ofInt (i : Int) : Value :=
  if Decimal.minInt ≤ i ∧ i ≤ Decimal.maxInt then int i else float (Decimal.ofInt i)

mutual

/-- The value that a settled document stands for. A mapping with the key of placeholders alone and a
    text under it is a placeholder. -/
def ofSettled? : Document → Option Value
  | .null => some null
  | .bool b => some (bool b)
  | .int i => some (ofInt i)
  | .float f => some (float f)
  | .text s => some (text s)
  | .plain _ => none
  | .list items => (ofSettledList? items).map list
  | .fields [(k, .text s)] =>
    k.asText?.map fun name =>
      if name = placeholderKey then unresolved s else map [(name, text s)]
  | .fields entries => (ofSettledEntries? entries).map fun es => map (Keyed.sorted es)

def ofSettledList? : List Document → Option (List Value)
  | [] => some []
  | d :: ds => do
    let v ← ofSettled? d
    let vs ← ofSettledList? ds
    pure (v :: vs)

def ofSettledEntries? : List (Document.Key × Document) → Option (List (String × Value))
  | [] => some []
  | (k, d) :: es => do
    let name ← k.asText?
    let v ← ofSettled? d
    let vs ← ofSettledEntries? es
    pure ((name, v) :: vs)

end

/-- The value that a document stands for; keys have to be texts. -/
def ofDocument? (d : Document) : Option Value := ofSettled? d.settle

mutual

/-- The document of a value. -/
def toDocument : Value → Document
  | null => .null
  | bool b => .bool b
  | int i => .int i
  | float f => .float f
  | text s => .text s
  | list items => .list (documentsOfList items)
  | unresolved e => .object [(placeholderKey, .text e)]
  | map entries => .fields (documentsOfEntries entries)

def documentsOfList : List Value → List Document
  | [] => []
  | v :: vs => toDocument v :: documentsOfList vs

def documentsOfEntries : List (String × Value) → List (Document.Key × Document)
  | [] => []
  | (k, v) :: es => Document.entry k (toDocument v) :: documentsOfEntries es

end

/-! ### Text -/

/-- A float in running text: a whole one below `10 ^ 15` as an integer. -/
def floatText (f : Float) : String :=
  if Decimal.isWhole f && f.abs < 1e15 then toString (Decimal.truncate f)
  else Decimal.plainLayout.render f

/-- The text of a value inside a template: nothing for a missing value, a placeholder as the
    expression it stands for, and JSON for lists and maps. -/
def toText : Value → String
  | null => ""
  | bool b => if b then "true" else "false"
  | int i => toString i
  | float f => floatText f
  | text s => s
  | unresolved e => "$\x7b" ++ e ++ "\x7d"
  | v => Json.compact v.toDocument

end Value

end Cartograph
