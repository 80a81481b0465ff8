/-!
# Binary fractions

A finite double-precision number is exactly a natural number times a power of two, with a sign
(`Dyadic`). Everything that must be exact about such numbers is computed on this form in natural
numbers: rounding a fraction to the nearest number (`ofRatio`), cutting off the fraction
(`truncate`), and the remainder of a division (`remainder`).
-/

namespace Cartograph.Decimal

/-- The number `mantissa * 2 ^ exponent`, with a sign. -/
structure Dyadic where
  negative : Bool
  mantissa : Nat
  exponent : Int
  deriving Repr, DecidableEq

/-- The exact value of a finite number; `none` for infinities and what is not a number. -/
def Dyadic.ofFloat? (f : Float) : Option Dyadic :=
  let bits : Nat := f.toBits.toNat
  let negative := bits / Nat.pow 2 63 == 1
  let biased : Nat := bits / Nat.pow 2 52 % Nat.pow 2 11
  let fraction : Nat := bits % Nat.pow 2 52
  if biased = 2047 then none
  else if biased = 0 then some ⟨negative, fraction, -1074⟩
  else some ⟨negative, fraction + Nat.pow 2 52, (biased : Int) - 1075⟩

/-- The power `base ^ e` as a fraction: numerator and denominator. -/
def power (base : Nat) (e : Int) : Nat × Nat := (Nat.pow base e.toNat, Nat.pow base (-e).toNat)

/-- A quotient rounded to the nearest natural number, a tie to the even one. -/
def roundDiv (num den : Nat) : Nat :=
  let q := num / den
  let r := num % den
  if 2 * r < den then q else if 2 * r = den then q + q % 2 else q + 1

/-- The bits of a number with a sign, from the bits of its magnitude. -/
def signed (negative : Bool) (bits : Nat) : Float :=
  Float.ofBits (UInt64.ofNat (bits + if negative then Nat.pow 2 63 else 0))

/-- The bits of positive infinity. -/
def infinityBits : Nat := 2047 * Nat.pow 2 52

/-- The exponent that leaves 53 digits of `num / den` before the binary point, or the least
    exponent there is. -/
def scaleOf (num den : Nat) : Int :=
  let guess : Int := (num.log2 : Int) - den.log2 - 53
  let (p, q) := power 2 guess
  let fitted := if num * q / (den * p) < Nat.pow 2 53 then guess else guess + 1
  max fitted (-1074)

/-- The number nearest to `num / den`, a tie to the even mantissa. A magnitude beyond the greatest
    number gives infinity. Rounding up to a power of two carries into the exponent by itself, since
    the exponent stands before the fraction in the bits. -/
def ofRatio (negative : Bool) (num den : Nat) : Float :=
  if num = 0 then signed negative 0
  else
    let e := scaleOf num den
    let (p, q) := power 2 e
    let m := roundDiv (num * q) (den * p)
    let bits := if m < Nat.pow 2 52 then m
      else (e + 1075).toNat * Nat.pow 2 52 + (m - Nat.pow 2 52)
    signed negative (min bits infinityBits)

/-- The number nearest to `digits * 10 ^ exponent`. Exponents far outside the range of the format
    are decided by the count of digits alone. -/
def ofDecimal (negative : Bool) (digits : Nat) (exponent : Int) : Float :=
  let places : Int := (Nat.toDigits 10 digits).length
  if digits = 0 ∨ exponent + places < -330 then signed negative 0
  else if 320 < exponent + places then signed negative infinityBits
  else
    let (p, q) := power 10 exponent
    ofRatio negative (digits * p) q

/-- The number nearest to an integer. -/
def ofInt (i : Int) : Float := ofRatio (decide (i < 0)) i.natAbs 1

/-- The magnitude of a binary fraction without its fractional part. -/
def Dyadic.floorAbs (d : Dyadic) : Nat :=
  let (p, q) := power 2 d.exponent
  d.mantissa * p / q

/-- Whether a binary fraction is a whole number. -/
def Dyadic.isWhole (d : Dyadic) : Bool :=
  let (p, q) := power 2 d.exponent
  d.mantissa * p % q == 0

/-- Whether a number is finite and whole. -/
def isWhole (f : Float) : Bool := (Dyadic.ofFloat? f).any Dyadic.isWhole

/-- The least and the greatest signed 64-bit integer. -/
def minInt : Int := -9223372036854775808
def maxInt : Int := 9223372036854775807

/-- An integer brought into the signed 64-bit range. -/
def clamp (i : Int) : Int := max minInt (min maxInt i)

/-- A size as a signed 64-bit integer. -/
def ofSize (n : Nat) : Int := Int.bmod n (Nat.pow 2 64)

/-- A signed 64-bit integer with the other sign. The least one has no counterpart and stays. -/
def negate (i : Int) : Int := if i = minInt then minInt else -i

/-- A number cut off toward zero and brought into the signed 64-bit range. What is not a number
    gives zero, an infinity the end of the range on its side. -/
def truncate (f : Float) : Int :=
  match Dyadic.ofFloat? f with
  | some d => clamp (if d.negative then -(d.floorAbs : Int) else d.floorAbs)
  | none => if f.isNaN then 0 else if f < 0 then minInt else maxInt

/-- The remainder of a division whose quotient is cut off toward zero. It is exact, and has the sign
    of the dividend. -/
def remainder (a b : Float) : Float :=
  match Dyadic.ofFloat? a, Dyadic.ofFloat? b with
  | some x, some y =>
    if y.mantissa = 0 then 0.0 / 0.0
    else
      let e := min x.exponent y.exponent
      let m := x.mantissa * Nat.pow 2 (x.exponent - e).toNat
        % (y.mantissa * Nat.pow 2 (y.exponent - e).toNat)
      let (p, q) := power 2 e
      ofRatio x.negative (m * p) q
  | some _, none => if b.isNaN then b else a
  | none, _ => 0.0 / 0.0

example : (ofRatio false 1 2).toBits = (0.5 : Float).toBits := by decide +kernel
example : (ofDecimal false 1 (-1)).toBits = (0.1 : Float).toBits := by decide +kernel
example : (ofDecimal true 5 (-324)).toBits = 0x8000000000000001 := by decide +kernel
example : truncate 1e300 = maxInt := by decide +kernel
example : truncate (-2.9) = -2 := by decide +kernel

/-- The greater of two numbers, what is not a number aside. -/
def greater (a b : Float) : Float :=
  if a.isNaN then b else if b.isNaN then a else if a < b then b else a

/-- The smaller of two numbers, what is not a number aside. -/
def smaller (a b : Float) : Float :=
  if a.isNaN then b else if b.isNaN then a else if b < a then b else a

end Cartograph.Decimal
