import Cartograph.Decimal.Shortest

/-!
# Numbers with a fixed count of places

The exact value of a number rounded to a given count of decimal places. A tie goes to the even
digit, so `0.125` with two places is `0.12`.
-/

namespace Cartograph.Decimal

/-- The magnitude of a binary fraction in units of `10 ^ -places`, rounded. -/
def Dyadic.rounded (d : Dyadic) (places : Nat) : Nat :=
  let (p, q) := power 2 d.exponent
  roundDiv (d.mantissa * p * Nat.pow 10 places) q

/-- A number with exactly `places` digits after the point. -/
def fixed (places : Nat) (f : Float) : String :=
  match Dyadic.ofFloat? f with
  | none => plainLayout.render f
  | some d =>
    let body := (Scientific.mk (d.rounded places) (-(places : Int))).positional false
    String.ofList (if d.negative then '-' :: body else body)

example : fixed 2 0.125 = "0.12" := by decide +kernel
example : fixed 0 2.5 = "2" := by decide +kernel
example : fixed 3 (-1.0005) = "-1.000" := by decide +kernel

end Cartograph.Decimal
