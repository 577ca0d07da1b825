/-!
# Doubles as whole numbers and powers of two

A finite double is a whole number times a power of two.  In this form the
remainder of two doubles, the whole value of a double and the decimal texts that
read back to it are questions about natural numbers.
-/

namespace Workflow.Decimal

/-- The finite double `± mantissa * 2 ^ exponent`. -/
structure Binary where
  negative : Bool
  mantissa : Nat
  exponent : Int
  deriving Repr, DecidableEq

def mantissaBits : Nat := 52

def leastExponent : Int := -1074

/-- The parts of a double, unless it is infinite or not a number. -/
def Binary.ofFloat? (x : Float) : Option Binary :=
  let bits := x.toBits.toNat
  let negative := bits / Nat.pow 2 63 = 1
  let stored := bits % Nat.pow 2 mantissaBits
  let biased := bits / Nat.pow 2 mantissaBits % Nat.pow 2 11
  if biased = Nat.pow 2 11 - 1 then none
  else if biased = 0 then some ⟨negative, stored, leastExponent⟩
  else some ⟨negative, Nat.pow 2 mantissaBits + stored, leastExponent + (biased - 1 : Nat)⟩

/-- The double with the given parts, for a mantissa of at most 53 bits and a value
within the range of doubles. -/
def Binary.toFloat (b : Binary) : Float :=
  let sign := if b.negative then Nat.pow 2 63 else 0
  if b.mantissa = 0 then Float.ofBits (UInt64.ofNat sign)
  else
    let length := Nat.log2 b.mantissa
    let shift := min (mantissaBits - length) (b.exponent - leastExponent).toNat
    let mantissa := b.mantissa * Nat.pow 2 shift
    let exponent := b.exponent - shift
    let bits :=
      if mantissa < Nat.pow 2 mantissaBits then mantissa
      else
        (exponent - leastExponent + 1).toNat * Nat.pow 2 mantissaBits +
          (mantissa - Nat.pow 2 mantissaBits)
    Float.ofBits (UInt64.ofNat (sign + bits))

/-- Half of a natural number as often as it is even, at most `fuel` times, with the
number of halvings. -/
def halvings : Nat → Nat → Nat × Nat
  | 0, n => (n, 0)
  | fuel + 1, n =>
    if n % 2 = 0 && n != 0 then
      let (m, k) := halvings fuel (n / 2)
      (m, k + 1)
    else (n, 0)

/-- The whole number that a double stands for, if it is whole. -/
def Binary.whole? (b : Binary) : Option Int :=
  let signed (n : Nat) : Int := if b.negative then -(n : Int) else n
  if b.mantissa = 0 then some 0
  else if 0 ≤ b.exponent then some (signed (b.mantissa * Nat.pow 2 b.exponent.toNat))
  else
    let unit := Nat.pow 2 (-b.exponent).toNat
    if b.mantissa % unit = 0 then some (signed (b.mantissa / unit)) else none

/-- The whole number that a double stands for, if it is finite and whole. -/
def whole? (x : Float) : Option Int := (Binary.ofFloat? x).bind Binary.whole?

/-- The whole part of a double, toward zero; zero for what is not finite. -/
def truncate (x : Float) : Int :=
  match Binary.ofFloat? x with
  | none => 0
  | some b =>
    let n :=
      if 0 ≤ b.exponent then b.mantissa * Nat.pow 2 b.exponent.toNat
      else b.mantissa / Nat.pow 2 (-b.exponent).toNat
    if b.negative then -(n : Int) else n

/-- The remainder that has the sign of the dividend, exact for all finite doubles.
A finite dividend is its own remainder by an infinite divisor. -/
def remainder (x y : Float) : Float :=
  match Binary.ofFloat? x, Binary.ofFloat? y with
  | some a, some b =>
    if b.mantissa = 0 then 0.0 / 0.0
    else
      let exponent := min a.exponent b.exponent
      let m := a.mantissa * Nat.pow 2 (a.exponent - exponent).toNat
      let n := b.mantissa * Nat.pow 2 (b.exponent - exponent).toNat
      let (r, k) := halvings 2200 (m % n)
      (Binary.mk a.negative r (exponent + k)).toFloat
  | some _, none => if y.isNaN then y else x
  | none, _ => 0.0 / 0.0

end Workflow.Decimal
