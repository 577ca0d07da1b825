import Workflow.Decimal.Shortest

/-!
# Texts of doubles

The same digits are laid out differently in different places: with or without an
exponent, with or without a sign on it.  A layout records these choices; the
digits are always the shortest that read back.
-/

namespace Workflow.Decimal

/-- Where digits are written without an exponent, as a condition on the exponent of
the first digit, and whether a positive exponent carries a sign. -/
structure Layout where
  positional : Int → Bool
  plus : Bool

/-- Numbers in data: positional from `0.00001` up to sixteen digits before the point,
and a plus sign on positive exponents. -/
def Layout.data : Layout := ⟨fun p => -5 ≤ p && p ≤ 15, true⟩

/-- Numbers in messages about tokens: positional from `0.0001`, and no plus sign. -/
def Layout.token : Layout := ⟨fun p => -4 ≤ p && p ≤ 15, false⟩

def Layout.plain : Layout := ⟨fun _ => true, false⟩

def digitsOf (n : Nat) : List Char := Nat.toDigits 10 n

def intText (i : Int) : String :=
  if i < 0 then String.ofList ('-' :: digitsOf i.natAbs) else String.ofList (digitsOf i.natAbs)

/-- Digits with the point after the digit of exponent zero and at least one digit on
both sides of it. -/
def positionalText (digits : List Char) (leading : Int) : List Char :=
  if leading < 0 then
    '0' :: '.' :: List.replicate (-leading - 1).toNat '0' ++ digits
  else
    let before := leading.toNat + 1
    let padded := digits ++ List.replicate (before - digits.length) '0'
    let after := padded.drop before
    padded.take before ++ '.' :: (if after.isEmpty then ['0'] else after)

/-- Digits with the point after the first one, if there is more than one, and an
exponent. -/
def scientificText (plus : Bool) (digits : List Char) (leading : Int) : List Char :=
  let point := match digits with
    | d :: e :: rest => d :: '.' :: e :: rest
    | short => short
  let sign := if leading < 0 then ['-'] else if plus then ['+'] else []
  point ++ 'e' :: sign ++ digitsOf leading.natAbs

def Layout.text (layout : Layout) (x : Float) : String :=
  match Binary.ofFloat? x with
  | none => if x.isNaN then "NaN" else if x < 0.0 then "-inf" else "inf"
  | some b =>
    let sign := if b.negative then ['-'] else []
    if b.mantissa = 0 then String.ofList (sign ++ ['0', '.', '0'])
    else
      let d := shortest b.mantissa b.exponent
      let digits := digitsOf d.digits
      let leading := d.exponent + (digits.length - 1 : Nat)
      let body :=
        if layout.positional leading then positionalText digits leading
        else scientificText layout.plus digits leading
      String.ofList (sign ++ body)

end Workflow.Decimal
