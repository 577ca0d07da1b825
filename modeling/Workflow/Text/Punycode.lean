import Workflow.Text.Class

/-!
# Words in basic characters

A word is written with basic characters alone: first those that it has, then, behind a hyphen,
where the others stand.  The others are put in from the lowest to the highest, and each is told
by a number: how many steps of the reading go by, through the places of the word and then on to
the next character, before it is put in.  A number is written in digits whose weights follow
the size of the numbers before it.
-/

namespace Workflow.Text.Punycode

def isBasic (c : Char) : Bool := c.toNat < 0x80

def digit (d : Nat) : Char := if d < 26 then Char.ofNat (97 + d) else Char.ofNat (22 + d)

def threshold (bias place : Nat) : Nat := max 1 (min 26 (place - bias))

/-- A number as digits, the least significant one first. -/
def digits (bias place n : Nat) : List Char :=
  let t := threshold bias place
  if n < t then [digit n]
  else digit (t + (n - t) % (36 - t)) :: digits bias (place + 36) ((n - t) / (36 - t))
termination_by n
decreasing_by
  have low : 1 ≤ threshold bias place := Nat.le_max_left ..
  exact Nat.lt_of_le_of_lt (Nat.div_le_self _ _) (by omega)

def biasOf (place n : Nat) : Nat :=
  if 455 < n then biasOf (place + 36) (n / 35) else place + 36 * n / (n + 38)
termination_by n
decreasing_by omega

def adapted (n placed : Nat) (isFirst : Bool) : Nat :=
  let n := if isFirst then n / 700 else n / 2
  biasOf 0 (n + n / placed)

/-- What is written so far, the steps since the last character that was put in, the bias, and
how many characters are in place. -/
structure State where
  written : List Char
  steps : Nat
  bias : Nat
  placed : Nat

/-- One character of the word is passed, while those that are equal to `c` are put in. -/
def State.pass (basic : Nat) (c : Char) (s : State) (d : Char) : State :=
  if d.toNat < c.toNat then { s with steps := s.steps + 1 }
  else if d = c then
    { written := s.written ++ digits s.bias 36 s.steps
      steps := 0
      bias := adapted s.steps (s.placed + 1) (s.placed = basic)
      placed := s.placed + 1 }
  else s

/-- The characters in ascending order are put in, where all below a code point are in place. -/
def insertAll (word : List Char) (basic : Nat) : Nat → List Char → State → State
  | _, [], s => s
  | low, c :: rest, s =>
    let s := { s with steps := s.steps + (c.toNat - low) * (s.placed + 1) }
    let s := word.foldl (State.pass basic c) s
    insertAll word basic (c.toNat + 1) rest { s with steps := s.steps + 1 }

def encode (word : List Char) : List Char :=
  let basic := word.filter isBasic
  let others := (word.filter (!isBasic ·)).mergeSort fun a b => decide (a.toNat ≤ b.toNat)
  let start := if basic.isEmpty then [] else basic ++ ['-']
  (insertAll word basic.length 0x80 others.eraseDups ⟨start, 0, 72, basic.length⟩).written

end Workflow.Text.Punycode
