import Cartograph.Decimal.Dyadic

/-!
# Reading numbers

Numbers in texts are written with ASCII digits. An integer may have a sign, and is refused if it
does not fit (`readInt?`, `readNat?`). A number may have a sign, a point with digits on at least one
side, and an exponent; infinity and what is not a number have names, in any case (`readFloat?`).
-/

namespace Cartograph.Decimal

/-- The value of a list of ASCII digits. -/
def digitsValue (ds : List Char) : Nat :=
  ds.foldl (fun n d => 10 * n + (d.toNat - '0'.toNat)) 0

/-- The value of a nonempty list of ASCII digits. -/
def readDigits? (cs : List Char) : Option Nat :=
  if cs ≠ [] ∧ cs.all Char.isDigit then some (digitsValue cs) else none

/-- A sign and what follows it: whether it is negative. -/
def readSign : List Char → Bool × List Char
  | '-' :: cs => (true, cs)
  | '+' :: cs => (false, cs)
  | cs => (false, cs)

/-- An integer in the signed 64-bit range. -/
def readInt? (s : String) : Option Int :=
  let (negative, cs) := readSign s.toList
  (readDigits? cs).bind fun n =>
    let i : Int := if negative then -(n : Int) else n
    if minInt ≤ i ∧ i ≤ maxInt then some i else none

/-- A natural number below `limit`, with an optional plus sign. -/
def readBelow? (limit : Nat) (s : String) : Option Nat :=
  let cs := match s.toList with
    | '+' :: cs => cs
    | cs => cs
  (readDigits? cs).bind fun n => if n < limit then some n else none

/-- A natural number of at most 64 bits. -/
def readNat? (s : String) : Option Nat := readBelow? (Nat.pow 2 64) s

/-- The exponent part at the end of a number: nothing, or `e` with an integer. -/
def readExponent? : List Char → Option Int
  | [] => some 0
  | c :: cs =>
    if c = 'e' ∨ c = 'E' then
      let (negative, ds) := readSign cs
      (readDigits? ds).map fun n => if negative then -(n : Int) else n
    else none

/-- A number without sign: digits with at most one point, then an exponent part. -/
def readMagnitude? (negative : Bool) (cs : List Char) : Option Float :=
  let whole := cs.takeWhile Char.isDigit
  let rest := cs.dropWhile Char.isDigit
  let (places, rest) := match rest with
    | '.' :: r => (r.takeWhile Char.isDigit, r.dropWhile Char.isDigit)
    | r => ([], r)
  if whole = [] ∧ places = [] then none
  else (readExponent? rest).map fun e =>
    ofDecimal negative (digitsValue (whole ++ places)) (e - places.length)

/-- A number, or a name of infinity or of what is not a number. -/
def readFloat? (s : String) : Option Float :=
  let (negative, cs) := readSign s.toList
  let name := String.ofList (cs.map Char.toLower)
  if name = "inf" ∨ name = "infinity" then some (signed negative infinityBits)
  else if name = "nan" then some (0.0 / 0.0)
  else readMagnitude? negative cs

example : readInt? "-9223372036854775808" = some minInt := by decide +kernel
example : readInt? "9223372036854775808" = none := by decide +kernel
example : (readFloat? ".5e1").map Float.toBits = some (5.0 : Float).toBits := by decide +kernel
example : (readFloat? ".").map Float.toBits = none := by decide +kernel

end Cartograph.Decimal
