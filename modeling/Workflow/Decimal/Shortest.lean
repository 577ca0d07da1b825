import Workflow.Decimal.Binary

/-!
# Shortest decimal texts

The decimal with the fewest digits that reads back as a given double, and among
those the nearest to it.  For each number of digits only the two neighbours of
the double on the decimal grid need to be tried: if a point of the grid rounds to
the double, then one of the neighbours does.
-/

namespace Workflow.Decimal

/-- A positive decimal `digits * 10 ^ exponent`. -/
structure Numeral where
  digits : Nat
  exponent : Int
  deriving Repr, DecidableEq

/-- A positive double `mantissa * 2 ^ exponent` against the grid of the multiples of
`10 ^ grid`.  All four numbers are in one unit, a common fraction of a quarter of
the last binary place: the double, the two ends of the interval of reals that
round to it, and the step of the grid. -/
structure Scale where
  value : Nat
  low : Nat
  high : Nat
  step : Nat

/-- The scale of a double on a decimal grid.  The lower neighbour of a power of two
is only half as far away as the upper one. -/
def Scale.of (mantissa : Nat) (exponent grid : Int) : Scale :=
  let quarter := exponent - 2
  let unit := Nat.pow 2 quarter.toNat * Nat.pow 10 (-grid).toNat
  let step := Nat.pow 10 grid.toNat * Nat.pow 2 (-quarter).toNat
  let below := if mantissa = Nat.pow 2 mantissaBits && leastExponent < exponent then 1 else 2
  ⟨4 * mantissa * unit, (4 * mantissa - below) * unit, (4 * mantissa + 2) * unit, step⟩

/-- Whether the multiple `n` of the grid's step rounds to the double.  The ends of
the interval belong to it when the mantissa is even. -/
def Scale.admits (s : Scale) (evenMantissa : Bool) (n : Nat) : Bool :=
  if evenMantissa then s.low ≤ n * s.step && n * s.step ≤ s.high
  else s.low < n * s.step && n * s.step < s.high

/-- The multiple of the grid's step that rounds to the double and is nearest to it,
an even one in case of a tie. -/
def Scale.nearest? (s : Scale) (evenMantissa : Bool) : Option Nat :=
  let n := s.value / s.step
  let below := s.value - n * s.step
  let above := (n + 1) * s.step - s.value
  match s.admits evenMantissa n && n != 0, s.admits evenMantissa (n + 1) with
  | false, false => none
  | true, false => some n
  | false, true => some (n + 1)
  | true, true =>
    if below < above then some n
    else if above < below then some (n + 1)
    else if n % 2 = 0 then some n else some (n + 1)

/-- Whether a positive double is at least a power of ten. -/
def reaches (mantissa : Nat) (exponent power : Int) : Bool :=
  Nat.pow 10 power.toNat * Nat.pow 2 (-exponent).toNat ≤
    mantissa * Nat.pow 2 exponent.toNat * Nat.pow 10 (-power).toNat

/-- The exponent of the first decimal digit of a positive double.  The estimate from
the number of bits is off by at most one. -/
def leadingExponent (mantissa : Nat) (exponent : Int) : Int :=
  let estimate := Int.fdiv ((Nat.log2 mantissa + exponent) * 30103) 100000
  if reaches mantissa exponent (estimate + 1) then estimate + 1
  else if reaches mantissa exponent estimate then estimate
  else estimate - 1

/-- A decimal without trailing zeros in its digits, `fuel` of them at most removed. -/
def Numeral.strip : Nat → Numeral → Numeral
  | 0, d => d
  | fuel + 1, d =>
    if d.digits % 10 = 0 && d.digits != 0 then
      Numeral.strip fuel ⟨d.digits / 10, d.exponent + 1⟩
    else d

/-- The first grid, from coarse to fine, that has a point which rounds to the double. -/
def firstGrid (mantissa : Nat) (exponent leading : Int) : List Nat → Option Numeral
  | [] => none
  | count :: counts =>
    let grid := leading - count
    match (Scale.of mantissa exponent grid).nearest? (mantissa % 2 = 0) with
    | some n => some ⟨n, grid⟩
    | none => firstGrid mantissa exponent leading counts

/-- The shortest decimal that reads back as the positive double
`mantissa * 2 ^ exponent`, nearest to it among the shortest.  Seventeen digits are
always enough. -/
def shortest (mantissa : Nat) (exponent : Int) : Numeral :=
  let leading := leadingExponent mantissa exponent
  match firstGrid mantissa exponent leading (List.range 17) with
  | some d => d.strip 20
  | none => ⟨0, 0⟩

end Workflow.Decimal
