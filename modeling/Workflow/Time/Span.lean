import Workflow.Decimal.Binary

/-!
# Spans of time

A span given in seconds as a double, in whole nanoseconds.
-/

namespace Workflow.Time

/-- The whole number nearest to a fraction, the even one of two that are equally near. -/
def roundHalfEven (numerator denominator : Nat) : Nat :=
  let floor := numerator / denominator
  let rest := 2 * (numerator % denominator)
  if rest < denominator then floor
  else if denominator < rest then floor + 1
  else floor + floor % 2

def longestSeconds : Nat := Nat.pow 2 64

/-- The nanoseconds of a span of some seconds, unless it is negative, too long, or no number
at all. -/
def nanosOfSeconds? (seconds : Float) : Option Nat :=
  match Decimal.Binary.ofFloat? seconds with
  | none => none
  | some b =>
    if b.negative && b.mantissa != 0 then none
    else
      let (numerator, denominator) :=
        if 0 ≤ b.exponent then (b.mantissa * Nat.pow 2 b.exponent.toNat, 1)
        else (b.mantissa, Nat.pow 2 (-b.exponent).toNat)
      if longestSeconds * denominator ≤ numerator then none
      else some (roundHalfEven (numerator * 1000000000) denominator)

end Workflow.Time
