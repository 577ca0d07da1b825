import Workflow.Decimal.Layout
import Workflow.Text.Class

/-!
# Identifiers

Identifiers of workflows, primitives and executions are numbers of 128 bits.  They are
written as five groups of hexadecimal digits, and read in that form, without the
hyphens, in braces, or behind `urn:uuid:`.
-/

namespace Workflow

structure Uuid where
  value : Nat
  deriving DecidableEq, Repr

namespace Uuid

instance : Inhabited Uuid := ⟨⟨0⟩⟩

/-- The hexadecimal digits of a number, the last `count` of them. -/
def hexDigits : Nat → Nat → List Char
  | 0, _ => []
  | count + 1, n => hexDigits count (n / 16) ++ [Nat.digitChar (n % 16)]

/-- The text of an identifier: groups of 8, 4, 4, 4 and 12 digits. -/
def text (u : Uuid) : String :=
  let digits := hexDigits 32 u.value
  String.ofList (digits.take 8 ++ '-' :: (digits.drop 8).take 4 ++ '-' :: (digits.drop 12).take 4 ++
    '-' :: (digits.drop 16).take 4 ++ '-' :: digits.drop 20)

/-- The identifier that says of itself that it was made at random: its version and its variant
stand in six of the bits, and the others are given. -/
def random (bits : Nat) : Uuid :=
  let first := bits / Nat.pow 2 74 % Nat.pow 2 48
  let middle := bits / Nat.pow 2 62 % Nat.pow 2 12
  let last := bits % Nat.pow 2 62
  ⟨first * Nat.pow 2 80 + 4 * Nat.pow 2 76 + middle * Nat.pow 2 64 + 2 * Nat.pow 2 62 + last⟩

/-- Why a text is not an identifier. -/
inductive ParseError where
  | character (found : Char) (index : Nat)
  | groupCount (count : Nat)
  | groupLength (group count : Nat)
  | simpleLength (count : Nat)
  deriving Repr, DecidableEq

def groupLengths : List Nat := [8, 4, 4, 4, 12]

def ParseError.message (e : ParseError) : String :=
  "UUID parsing failed: " ++
    match e with
    | .character found index =>
      "invalid character: found `" ++ String.singleton found ++ "` at " ++ Decimal.intText index
    | .groupCount count =>
      "invalid group count: expected 5, found " ++ Decimal.intText count
    | .groupLength group count =>
      "invalid group length in group " ++ Decimal.intText group ++ ": expected " ++
        Decimal.intText (groupLengths.getD group 0) ++ ", found " ++ Decimal.intText count
    | .simpleLength count =>
      "invalid length: expected length 32 for simple format, found " ++ Decimal.intText count

def hexNumber? (cs : List Char) : Option Nat :=
  (cs.mapM Text.hexDigit?).map fun digits => digits.foldl (fun n d => 16 * n + d) 0

/-- The first character that is neither a hexadecimal digit nor a hyphen, with its byte
index. -/
def badCharacter? : Nat → List Char → Option (Char × Nat)
  | _, [] => none
  | index, c :: cs =>
    if (Text.hexDigit? c).isSome || c = '-' then badCharacter? (index + c.utf8Size) cs
    else some (c, index)

/-- The first group, counted from zero, whose length is not the expected one. -/
def badGroup? : Nat → List Nat → List (List Char) → Option (Nat × Nat)
  | index, expected :: more, group :: groups =>
    if group.length = expected then badGroup? (index + 1) more groups
    else some (index, group.length)
  | _, _, _ => none

def urnPrefix : List Char := ['u', 'r', 'n', ':', 'u', 'u', 'i', 'd', ':']

/-- The part of a text that holds the digits, the byte index at which it begins, and
whether it may go without hyphens. -/
def body (cs : List Char) : List Char × Nat × Bool :=
  match cs with
  | '\x7b' :: rest =>
    if rest.getLast? = some '\x7d' then (rest.dropLast, 1, false) else (cs, 0, true)
  | _ => if urnPrefix.isPrefixOf cs then (cs.drop 9, 9, false) else (cs, 0, true)

def lastGroupStart : Nat := 24

/-- The identifier a text gives.  The last group is taken to be all of the text that follows the
place where it begins, braces and the resource name included. -/
def parse? (s : String) : Except ParseError Uuid :=
  let (digits, offset, simple) := body s.toList
  match badCharacter? offset digits with
  | some (c, index) => .error (.character c index)
  | none =>
    let groups := Text.splitChars '-' digits
    match groups, hexNumber? groups.flatten with
    | [all], some n =>
      if simple then if all.length = 32 then .ok ⟨n⟩ else .error (.simpleLength all.length)
      else .error (.groupCount 1)
    | groups, some n =>
      if groups.length != 5 then .error (.groupCount groups.length)
      else
        match badGroup? 0 groupLengths groups with
        | some (4, _) => .error (.groupLength 4 (s.length - lastGroupStart))
        | some (group, count) => .error (.groupLength group count)
        | none => .ok ⟨n⟩
    | groups, none => .error (.groupCount groups.length)

/-- The identifier a text gives, or the message that says what is wrong with it. -/
def parse (s : String) : Except String Uuid :=
  match parse? s with
  | .ok u => .ok u
  | .error e => .error e.message

end Uuid

end Workflow
