import Cartograph.Decimal.Reader

/-!
# Documents

The tree that a text in a data format stands for: what the readers of the formats produce, what the
domain types are decoded from, and what is printed.

A format may leave the type of an unquoted scalar open until it is known what is expected there
(`Document.plain`); `settle` decides it from the text alone, which is what happens where any type is
welcome. Settling twice is settling once (`settle_settle`).

A decoder returns `none` for a document of the wrong shape. A record is decoded from the entries of
a mapping, which may name no field twice and may hold further entries (`Document.record?`).
-/

namespace Cartograph

/-- The key of an entry: its text, and whether it was an unquoted scalar. -/
structure Document.Key where
  text : String
  isPlain : Bool
  deriving Repr, DecidableEq

/-- A document tree. Entries keep the order of the text. -/
inductive Document
  | null
  | bool (b : Bool)
  | int (i : Int)
  | float (f : Float)
  | text (s : String)
  | plain (s : String)
  | list (items : List Document)
  | fields (entries : List (Document.Key × Document))
  deriving Inhabited

namespace Document

/-- An entry with a quoted key. -/
def entry (name : String) (d : Document) : Key × Document := (⟨name, false⟩, d)

/-- A mapping with quoted keys. -/
def object (entries : List (String × Document)) : Document :=
  fields (entries.map fun (k, d) => entry k d)

/-! ### Unquoted scalars -/

/-- The spellings of the missing value. -/
def isNullText (s : String) : Bool :=
  s == "" || s == "~" || s == "null" || s == "Null" || s == "NULL"

/-- The truth values by their spellings. -/
def boolOfText? (s : String) : Option Bool :=
  if s == "true" || s == "True" || s == "TRUE" then some true
  else if s == "false" || s == "False" || s == "FALSE" then some false
  else none

/-- The value of a digit to bases up to 16. -/
def digitValue? (base : Nat) (c : Char) : Option Nat :=
  let n := if c.isDigit then c.toNat - '0'.toNat
    else if 'a' ≤ c ∧ c ≤ 'f' then c.toNat - 'a'.toNat + 10
    else if 'A' ≤ c ∧ c ≤ 'F' then c.toNat - 'A'.toNat + 10
    else base
  if n < base then some n else none

/-- A nonempty list of digits to a base. -/
def natOfDigits? (base : Nat) (cs : List Char) : Option Nat :=
  if cs = [] then none
  else cs.foldlM (fun n c => (digitValue? base c).map (base * n + ·)) 0

/-- Digits whose first is a needless zero. -/
def hasLeadingZero (cs : List Char) : Bool :=
  match cs with
  | '0' :: d :: _ => d.isDigit
  | _ => false

/-- A number without sign, to the base that its first characters announce. -/
def natOfText? (cs : List Char) : Option Nat :=
  match cs with
  | '0' :: 'x' :: ds => natOfDigits? 16 ds
  | '0' :: 'o' :: ds => natOfDigits? 8 ds
  | '0' :: 'b' :: ds => natOfDigits? 2 ds
  | ds => if hasLeadingZero ds then none else natOfDigits? 10 ds

/-- An integer of 64 bits, with or without sign. -/
def intOfText? (s : String) : Option Int :=
  match s.toList with
  | '-' :: cs => (natOfText? cs).bind fun n => if n ≤ Nat.pow 2 63 then some (-(n : Int)) else none
  | '+' :: cs => (natOfText? cs).bind fun n => if n < Nat.pow 2 64 then some (n : Int) else none
  | cs => (natOfText? cs).bind fun n => if n < Nat.pow 2 64 then some (n : Int) else none

/-- A number that is no integer. The names of infinity and of what is not a number begin with a
    point. -/
def floatOfText? (s : String) : Option Float :=
  let cs := s.toList
  let unsigned := match cs with
    | '+' :: r => r
    | r => r
  let name := String.ofList unsigned
  if cs.head? = some '+' ∧ (unsigned.head? = some '+' ∨ unsigned.head? = some '-') then none
  else if name == ".inf" || name == ".Inf" || name == ".INF" then
    some (Decimal.signed false Decimal.infinityBits)
  else if s == "-.inf" || s == "-.Inf" || s == "-.INF" then
    some (Decimal.signed true Decimal.infinityBits)
  else if s == ".nan" || s == ".NaN" || s == ".NAN" then some (0.0 / 0.0)
  else
    let digits := match unsigned with
      | '-' :: r => r
      | r => r
    if hasLeadingZero digits && digits.all Char.isDigit then none
    else match Decimal.readFloat? name with
      | some f => if f.isFinite then some f else none
      | none => none

/-- The document that the text of an unquoted scalar stands for on its own. -/
def ofPlain (s : String) : Document :=
  if isNullText s then null
  else match boolOfText? s with
    | some b => bool b
    | none => match intOfText? s with
      | some i => int i
      | none => match floatOfText? s with
        | some f => float f
        | none => text s

/-- The text of a key, unless it is an unquoted scalar of another type. -/
def Key.asText? (k : Key) : Option String :=
  if k.isPlain then
    match ofPlain k.text with
    | .text s => some s
    | _ => none
  else some k.text

mutual

/-- Decides the types of all unquoted scalars. -/
def settle : Document → Document
  | plain s => ofPlain s
  | list items => list (settleList items)
  | fields entries => fields (settleEntries entries)
  | null => null
  | bool b => bool b
  | int i => int i
  | float f => float f
  | text s => text s

/-- Settles the members of a list. -/
def settleList : List Document → List Document
  | [] => []
  | d :: ds => settle d :: settleList ds

/-- Settles the values of entries; keys keep what they are. -/
def settleEntries : List (Key × Document) → List (Key × Document)
  | [] => []
  | (k, d) :: es => (k, settle d) :: settleEntries es

end

/-- An unquoted scalar on its own stands for something settled. -/
theorem settle_ofPlain (s : String) : settle (ofPlain s) = ofPlain s := by
  unfold ofPlain
  split
  · rfl
  · split
    · rfl
    · split
      · rfl
      · split <;> rfl

mutual

theorem settle_settle : ∀ d : Document, settle (settle d) = settle d
  | plain s => by simp [settle, settle_ofPlain]
  | list items => by simp [settle, settleList_settleList items]
  | fields entries => by simp [settle, settleEntries_settleEntries entries]
  | null => rfl
  | bool _ => rfl
  | int _ => rfl
  | float _ => rfl
  | text _ => rfl

theorem settleList_settleList : ∀ ds : List Document, settleList (settleList ds) = settleList ds
  | [] => rfl
  | d :: ds => by simp [settleList, settle_settle d, settleList_settleList ds]

theorem settleEntries_settleEntries :
    ∀ es : List (Key × Document), settleEntries (settleEntries es) = settleEntries es
  | [] => rfl
  | (k, d) :: es => by simp [settleEntries, settle_settle d, settleEntries_settleEntries es]

end

/-! ### Decoding -/

/-- A text. Any unquoted scalar is welcome as one. -/
def asText? : Document → Option String
  | text s => some s
  | plain s => some s
  | _ => none

/-- A truth value. -/
def asBool? : Document → Option Bool
  | bool b => some b
  | plain s => boolOfText? s
  | _ => none

/-- A natural number below a limit. -/
def asNatBelow? (limit : Nat) : Document → Option Nat
  | int i => check i
  | plain s => (intOfText? s).bind check
  | _ => none
where
  check (i : Int) : Option Nat := if 0 ≤ i ∧ i < limit then some i.toNat else none

/-- A natural number of at most 64 bits. -/
def asNat? (d : Document) : Option Nat := d.asNatBelow? (Nat.pow 2 64)

/-- The members of a list. A scalar without text stands for no members. -/
def asList? : Document → Option (List Document)
  | list items => some items
  | plain s => if s = "" then some [] else none
  | _ => none

/-- The entries of a mapping. A scalar without text stands for no entries. -/
def asEntries? : Document → Option (List (Key × Document))
  | fields entries => some entries
  | plain s => if s = "" then some [] else none
  | _ => none

/-- Whether the document stands for the missing value. -/
def isMissing : Document → Bool
  | null => true
  | plain s => isNullText s
  | _ => false

/-- The name of an alternative: a text, or a mapping of it to nothing. -/
def asTag? : Document → Option String
  | fields [(k, d)] => if d.isMissing then some k.text else none
  | d => d.asText?

/-- An optional member: nothing if missing, else what the decoder makes of it. -/
def optional? {α : Type} (decode : Document → Option α) (d : Document) : Option (Option α) :=
  if d.isMissing then some none else (decode d).map some

/-- All members of a list, decoded. -/
def listOf? {α : Type} (decode : Document → Option α) (d : Document) : Option (List α) :=
  d.asList?.bind fun items => items.mapM decode

/-- All entries of a mapping, decoded, with the texts of their keys. -/
def entriesOf? {α : Type} (decode : Document → Option α) (d : Document) :
    Option (List (String × α)) :=
  d.asEntries?.bind fun es => es.mapM fun (k, v) => (decode v).map fun a => (k.text, a)

/-- The fields of a record that a document gives, by name. -/
structure Record where
  found : List (String × Document)

/-- The record that a mapping gives for the field names `names`. -/
def record? (names : List String) (d : Document) : Option Record :=
  d.asEntries?.bind fun es =>
    let known := (es.map fun (k, v) => (k.text, v)).filter fun (k, _) => names.contains k
    if (known.map (·.1)).Nodup then some ⟨known⟩ else none

/-- The record that a mapping, or a list of field values in order, gives. -/
def positionalRecord? (names : List String) : Document → Option Record
  | list items => if items.length ≤ names.length then some ⟨names.zip items⟩ else none
  | d => d.record? names

/-- A field's document. -/
def Record.get? (r : Record) (name : String) : Option Document :=
  (r.found.find? fun e => e.1 == name).map (·.2)

/-- A field that must be there. -/
def Record.required? {α : Type} (r : Record) (name : String) (decode : Document → Option α) :
    Option α :=
  (r.get? name).bind decode

/-- A field with a default. -/
def Record.withDefault? {α : Type} (r : Record) (name : String) (decode : Document → Option α)
    (default : α) : Option α :=
  match r.get? name with
  | none => some default
  | some d => decode d

/-- A field that may be missing or null. -/
def Record.optional? {α : Type} (r : Record) (name : String) (decode : Document → Option α) :
    Option (Option α) :=
  match r.get? name with
  | none => some none
  | some d => d.optional? decode

end Document

end Cartograph
