import Workflow.Decimal.Layout
import Workflow.Text.Case

/-!
# Reading doubles

The double nearest to a decimal, and the texts that count as decimals: digits with
an optional sign, point and exponent, and the words for infinity and for what is not
a number.
-/

namespace Workflow.Decimal

/-- The double nearest to `digits * 10 ^ exponent`.  Exponents far outside the range of
doubles are decided by the number of digits. -/
def nearest (digits : Nat) (exponent : Int) : Float :=
  if digits = 0 then 0.0
  else
    let leading := exponent + ((digitsOf digits).length : Int)
    if 310 < leading then 1.0 / 0.0
    else if leading < -330 then 0.0
    else Float.ofScientific digits (exponent < 0) exponent.natAbs

def natOf (digits : List Char) : Nat :=
  digits.foldl (fun n d => 10 * n + (d.toNat - '0'.toNat)) 0

/-- So many digits decide which double is nearest, but for whether all others are zeros. -/
def decisiveDigits : Nat := 800

/-- Digits with the same nearest double for every exponent, and how many were left out. -/
def shortened (digits : List Char) : List Char × Nat :=
  let digits := digits.dropWhile (· = '0')
  let rest := digits.drop decisiveDigits
  if rest.isEmpty then (digits, 0)
  else
    (digits.take decisiveDigits ++ [if rest.all (· = '0') then '0' else '1'], rest.length - 1)

/-- The number in an exponent.  Digits are left out once it is far outside of all ranges. -/
def exponentSize (digits : List Char) : Nat :=
  digits.foldl (fun n d => if n < 65536 then 10 * n + (d.toNat - '0'.toNat) else n) 0

def exponentOf? (cs : List Char) : Option Int :=
  let signed (negative : Bool) (digits : List Char) : Option Int :=
    if digits.isEmpty || !digits.all Char.isDigit then none
    else
      let n : Int := exponentSize digits
      some (if negative then -n else n)
  match cs with
  | '-' :: digits => signed true digits
  | '+' :: digits => signed false digits
  | digits => signed false digits

/-- The double of a decimal without a sign. -/
def unsignedOf? (cs : List Char) : Option Float :=
  let before := cs.takeWhile Char.isDigit
  let rest := cs.drop before.length
  let (after, rest) := match rest with
    | '.' :: rest => (rest.takeWhile Char.isDigit, rest.dropWhile Char.isDigit)
    | rest => ([], rest)
  let (kept, leftOut) := shortened (before ++ after)
  let digits := natOf kept
  let exponent : Int := (leftOut : Int) - (after.length : Int)
  if before.isEmpty && after.isEmpty then none
  else
    match rest with
    | [] => some (nearest digits exponent)
    | 'e' :: power | 'E' :: power =>
      (exponentOf? power).map fun e => nearest digits (e + exponent)
    | _ => none

def parse? (s : String) : Option Float :=
  let unsigned (cs : List Char) : Option Float :=
    let word := Text.lowerAscii (String.ofList cs)
    if word = "inf" || word = "infinity" then some (1.0 / 0.0)
    else if word = "nan" then some (0.0 / 0.0)
    else unsignedOf? cs
  match s.toList with
  | '-' :: cs => (unsigned cs).map fun x => -x
  | '+' :: cs => unsigned cs
  | cs => unsigned cs

end Workflow.Decimal
