import Cartograph.Decimal.Dyadic

/-!
# The shortest decimal of a number

A number is written with the fewest decimal digits that read back as the same number, and of those
with the digits nearest to its exact value. The numbers that read back as it form an interval
around it (`Interval`), whose ends belong to it if the mantissa is even.

The digits with their exponent (`shortest`) are laid out by a `Layout`: up to which exponents the
decimal is written out in full, and how an exponent is written otherwise.
-/

namespace Cartograph.Decimal

/-- The decimal `digits * 10 ^ exponent`. -/
structure Scientific where
  digits : Nat
  exponent : Int
  deriving Repr, DecidableEq

/-- Whether `a * 10 ^ k ≤ b * 2 ^ e`. -/
def leScaled (a : Nat) (k : Int) (b : Nat) (e : Int) : Bool :=
  let (p, q) := power 10 k
  let (r, s) := power 2 e
  a * p * s ≤ b * r * q

/-- Whether `b * 2 ^ e ≤ a * 10 ^ k`. -/
def geScaled (a : Nat) (k : Int) (b : Nat) (e : Int) : Bool :=
  let (p, q) := power 10 k
  let (r, s) := power 2 e
  b * r * q ≤ a * p * s

/-- The numbers that are read as `mantissa * 2 ^ exponent`, in quarters of the last place. -/
structure Interval where
  lower : Nat
  upper : Nat
  exponent : Int
  closed : Bool

/-- The interval of a binary fraction. Below a power of two the next number is half as far away,
    unless it lies among the least numbers, which are evenly spaced. -/
def Dyadic.interval (d : Dyadic) : Interval where
  lower :=
    if d.mantissa = Nat.pow 2 52 ∧ -1074 < d.exponent then 4 * d.mantissa - 1
    else 4 * d.mantissa - 2
  upper := 4 * d.mantissa + 2
  exponent := d.exponent - 2
  closed := d.mantissa % 2 == 0

/-- Whether the decimal `a * 10 ^ k` lies in the interval. -/
def Interval.contains (i : Interval) (a : Nat) (k : Int) : Bool :=
  if i.closed then geScaled a k i.lower i.exponent && leScaled a k i.upper i.exponent
  else !leScaled a k i.lower i.exponent && !geScaled a k i.upper i.exponent

/-- The number of digits before the decimal point: the least `k` with the value below `10 ^ k`. -/
def Dyadic.magnitude (d : Dyadic) : Int :=
  let guess := ((d.mantissa.log2 : Int) + d.exponent) * 30103 / 100000
  if leScaled 1 (guess + 1) d.mantissa d.exponent then guess + 2 else guess + 1

/-- The greatest multiple of `10 ^ k` not above the value, as its factor. -/
def Dyadic.floorAt (d : Dyadic) (k : Int) : Nat :=
  let (p, q) := power 10 k
  let (r, s) := power 2 d.exponent
  d.mantissa * r * q / (s * p)

/-- Whether the value is at most half-way from `a` to `a + 1` on the grid of `10 ^ k`. -/
def Dyadic.nearFloor (d : Dyadic) (a : Nat) (k : Int) : Bool :=
  let (p, q) := power 10 k
  let (r, s) := power 2 d.exponent
  let twice := 2 * d.mantissa * r * q
  let middle := (2 * a + 1) * p * s
  twice < middle || twice == middle && a % 2 == 0

/-- The grid point next to the value that reads back as it, on the grid of `10 ^ k`: of two the
    nearer. -/
def Dyadic.candidate? (d : Dyadic) (k : Int) : Option Scientific :=
  let a := d.floorAt k
  let below := d.interval.contains a k
  let above := d.interval.contains (a + 1) k
  if below && (!above || d.nearFloor a k) then some ⟨a, k⟩
  else if above then some ⟨a + 1, k⟩
  else none

/-- The first grid from `10 ^ k` downwards with a candidate; seventeen digits are always enough. -/
def Dyadic.search (d : Dyadic) (k : Int) : Nat → Scientific
  | 0 => ⟨d.floorAt k, k⟩
  | n + 1 => (d.candidate? k).getD (d.search (k - 1) n)

/-- Moves trailing zeros of the digits into the exponent. -/
def Scientific.strip (s : Scientific) : Scientific :=
  if h : s.digits ≠ 0 ∧ s.digits % 10 = 0 then
    strip ⟨s.digits / 10, s.exponent + 1⟩
  else s
termination_by s.digits
decreasing_by exact Nat.div_lt_self (Nat.pos_of_ne_zero h.1) (by decide)

/-- The shortest decimal that reads back as a binary fraction; zero has the digit `0`. -/
def Dyadic.shortest (d : Dyadic) : Scientific :=
  if d.mantissa = 0 then ⟨0, 0⟩ else (d.search (d.magnitude - 1) 17).strip

/-- How a decimal is laid out. -/
structure Layout where
  /-- The exponents of the first digit that are written without an exponent part; `none` for all. -/
  positional : Option (Int × Int)
  /-- Whether a whole number ends in `.0`. -/
  keepPoint : Bool
  /-- Whether an exponent that is not negative has a plus sign. -/
  plusSign : Bool
  /-- What stands for infinity and for what is not a number. -/
  infinity : String
  notANumber : String

/-- The digits of a number to base 10. -/
def digitsOf (n : Nat) : List Char := Nat.toDigits 10 n

/-- A decimal written out in full. -/
def Scientific.positional (s : Scientific) (keepPoint : Bool) : List Char :=
  let ds := digitsOf s.digits
  if 0 ≤ s.exponent then
    ds ++ List.replicate s.exponent.toNat '0' ++ (if keepPoint then ['.', '0'] else [])
  else
    let places := (-s.exponent).toNat
    let padded := List.replicate (places + 1 - ds.length) '0' ++ ds
    padded.take (padded.length - places) ++ '.' :: padded.drop (padded.length - places)

/-- A decimal with an exponent part. -/
def Scientific.exponential (s : Scientific) (plusSign : Bool) : List Char :=
  let ds := digitsOf s.digits
  let e := s.exponent + (ds.length - 1)
  let mantissa := match ds with
    | [] => []
    | [d] => [d]
    | d :: rest => d :: '.' :: rest
  let sign := if e < 0 then ['-'] else if plusSign then ['+'] else []
  mantissa ++ 'e' :: (sign ++ digitsOf e.natAbs)

/-- The text of a number in a layout. -/
def Layout.render (l : Layout) (f : Float) : String :=
  match Dyadic.ofFloat? f with
  | none => if f.isNaN then l.notANumber else if f < 0 then "-" ++ l.infinity else l.infinity
  | some d =>
    let s := d.shortest
    let first := s.exponent + ((digitsOf s.digits).length - 1)
    let body := match l.positional with
      | none => s.positional l.keepPoint
      | some (low, high) =>
        if low ≤ first && first ≤ high then s.positional l.keepPoint else s.exponential l.plusSign
    String.ofList (if d.negative then '-' :: body else body)

/-- Numbers in running text: never with an exponent. -/
def plainLayout : Layout := ⟨none, false, false, "inf", "NaN"⟩

example : plainLayout.render 1e21 = "1000000000000000000000" := by decide +kernel
example : plainLayout.render 5e-7 = "0.0000005" := by decide +kernel
example : plainLayout.render (-2.5) = "-2.5" := by decide +kernel

end Cartograph.Decimal
