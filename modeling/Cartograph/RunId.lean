import Cartograph.Text.Quoted

/-!
# Run identifiers

A run has an identifier of 128 bits. It is written as 32 hexadecimal digits in groups of 8, 4, 4,
4 and 12 (`RunId.text`), and read with or without the hyphens between the groups, in braces, or
behind `urn:uuid:` (`RunId.parse?`).
-/

namespace Cartograph

/-- The identifier of a run, as its 32 hexadecimal digits. -/
structure RunId where
  digits : List Nat
  deriving Repr, DecidableEq

namespace RunId

/-- The lengths of the groups of digits. -/
def groups : List Nat := [8, 4, 4, 4, 12]

/-- The value of a hexadecimal digit. -/
def digit? (c : Char) : Option Nat :=
  if c.isDigit then some (c.toNat - '0'.toNat)
  else if 'a' ≤ c ∧ c ≤ 'f' then some (c.toNat - 'a'.toNat + 10)
  else if 'A' ≤ c ∧ c ≤ 'F' then some (c.toNat - 'A'.toNat + 10)
  else none

/-- The digits of groups that hyphens part. -/
def grouped? : List Nat → List Char → Option (List Nat)
  | [], [] => some []
  | [], _ :: _ => none
  | [n], cs => if cs.length = n then cs.mapM digit? else none
  | n :: more, cs => do
    let ds ← (cs.take n).mapM digit?
    match cs.drop n with
    | '-' :: rest => (grouped? more rest).map (ds ++ ·)
    | _ => none

/-- The identifier of a text. -/
def parse? (s : String) : Option RunId :=
  let cs := s.toList
  let start := "urn:uuid:".toList
  let ds :=
    if cs.length = 32 then cs.mapM digit?
    else if cs.length = 36 then grouped? groups cs
    else if cs.length = 38 ∧ cs.head? = some '\x7b' ∧ cs.getLast? = some '\x7d' then
      grouped? groups (cs.drop 1).dropLast
    else if cs.length = 45 ∧ start.isPrefixOf cs then grouped? groups (cs.drop start.length)
    else none
  ds.map fun ds => ⟨ds⟩

/-- Digits in groups. -/
def hyphened : List Nat → List Char → List Char
  | [], cs => cs
  | [_], cs => cs
  | n :: more, cs => cs.take n ++ '-' :: hyphened more (cs.drop n)

/-- The text of an identifier. -/
def text (r : RunId) : String := String.ofList (hyphened groups (r.digits.map Nat.digitChar))

/-- The identifier of sixteen random bytes, marked as such by its thirteenth and seventeenth digit.
    -/
def ofRandom (bytes : List Nat) : RunId :=
  let ds := bytes.flatMap fun b => [b / 16 % 16, b % 16]
  ⟨(ds.set 12 4).modify 16 fun d => 8 + d % 4⟩

example : (parse? "6F9619FF8B864011B42D00C04FC964FF").map text =
    some "6f9619ff-8b86-4011-b42d-00c04fc964ff" := by decide +kernel

end RunId

end Cartograph
