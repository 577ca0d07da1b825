import Workflow.Text.Class

/-!
# Similar words

Two words are compared by the characters that they have in common.  A character of one word
has its partner in the other among the equal characters at about the same place, and no
character is a partner twice.  The similarity of words of lengths `a` and `b` with `m` pairs
is the mean of `m / a`, of `m / b`, and of the share of the pairs that are in order.
-/

namespace Workflow.Text

/-- Takes the first character from place `low` to place `high` that is equal to `c` and free.
The number is the place of the head of the list. -/
def takePartner (low high : Nat) (c : Char) :
    Nat → List (Char × Bool) → Option (List (Char × Bool))
  | _, [] => none
  | place, (d, taken) :: rest =>
    if low ≤ place && place ≤ high && d = c && !taken then some ((d, true) :: rest)
    else (takePartner low high c (place + 1) rest).map ((d, taken) :: ·)

/-- The characters of a word that find a partner, and the other word with the partners
marked. -/
def pairUp (reach : Nat) :
    Nat → List Char → List (Char × Bool) → List Char × List (Char × Bool)
  | _, [], marked => ([], marked)
  | place, c :: cs, marked =>
    match takePartner (place - reach) (place + reach) c 0 marked with
    | some marked =>
      let (found, marked) := pairUp reach (place + 1) cs marked
      (c :: found, marked)
    | none => pairUp reach (place + 1) cs marked

def similarity (a b : List Char) : Nat × Nat :=
  let reach := max a.length b.length / 2 - 1
  let (found, marked) := pairUp reach 0 a (b.map fun c => (c, false))
  let partners := (marked.filter Prod.snd).map Prod.fst
  let m := found.length
  let swapped := ((found.zip partners).filter fun p => p.1 != p.2).length / 2
  if m = 0 then (0, 1)
  else
    (m * m * b.length + m * m * a.length + (m - swapped) * a.length * b.length,
      3 * m * a.length * b.length)

/-- Those of the words that are similar to a word by seven tenths or more, the least similar
first. -/
def similarTo (word : String) (words : List String) : List String :=
  let rated := words.map fun other => (similarity word.toList other.toList, other)
  let near := rated.filter fun r => decide (7 * r.1.2 ≤ 10 * r.1.1)
  (near.mergeSort fun x y => decide (x.1.1 * y.1.2 ≤ y.1.1 * x.1.2)).map Prod.snd

end Workflow.Text
