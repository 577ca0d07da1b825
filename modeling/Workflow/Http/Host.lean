import Workflow.Decimal.Layout
import Workflow.Text.Case
import Workflow.Text.Percent
import Workflow.Text.Punycode

/-!
# Hosts

The host of a URL is a name, an address of four bytes, or an address of eight words in
brackets.  Each of them is brought into one form: names in lower case and basic characters,
addresses with the shortest numbers and without the longest run of zeros.
-/

namespace Workflow.Http

def hostForbidden : List Char :=
  [' ', '#', '%', '/', ':', '<', '>', '?', '@', '[', '\\', ']', '^', '|']

/-! ### Addresses of four bytes -/

/-- A number in a base of at most sixteen. -/
def numberIn? (base : Nat) (cs : List Char) : Option Nat :=
  cs.foldlM (fun n c => do
    let d ← Text.hexDigit? c
    if d < base then some (n * base + d) else none) 0

/-- A part of an address of numbers: decimal, octal after a zero, or hexadecimal. -/
def hostNumber? (cs : List Char) : Option Nat :=
  match cs with
  | [] => none
  | '0' :: 'x' :: rest => numberIn? 16 rest
  | '0' :: d :: rest => numberIn? 8 (d :: rest)
  | cs => numberIn? 10 cs

def isNumeric (parts : List (List Char)) : Bool :=
  let parts := if parts.length > 1 && parts.getLast? = some [] then parts.dropLast else parts
  match parts.getLast? with
  | none => false
  | some last =>
    !last.isEmpty &&
      (last.all Char.isDigit || ((last.take 2 == ['0', 'x']) && (hostNumber? last).isSome))

/-- The number of an address of numbers, of which the last one fills the remaining bytes. -/
def numericHost? (parts : List (List Char)) : Option Nat := do
  let parts := if parts.length > 1 && parts.getLast? = some [] then parts.dropLast else parts
  if parts.length > 4 then none
  let numbers ← parts.mapM hostNumber?
  let last ← numbers.getLast?
  let leading := numbers.dropLast
  if leading.any (· > 255) || last ≥ Nat.pow 256 (5 - numbers.length) then none
  let high := (leading.zip [3, 2, 1, 0]).foldl (fun n (d, place) => n + d * Nat.pow 256 place) 0
  some (high + last)

def numericText (n : Nat) : String :=
  ".".intercalate ([16777216, 65536, 256, 1].map fun unit => Decimal.intText (n / unit % 256))

/-! ### Addresses of eight words -/

def word? (cs : List Char) : Option Nat :=
  if cs.isEmpty || cs.length > 4 then none else numberIn? 16 cs

/-- Two words in the form of four bytes, each a decimal number without needless zeros. -/
def dottedWords? (cs : List Char) : Option (List Nat) := do
  let bytes ← (Text.splitChars '.' cs).mapM fun part => do
    if part.isEmpty || (part.length > 1 && part.head? = some '0') then none
    let n ← numberIn? 10 part
    if n > 255 then none
    return n
  match bytes with
  | [a, b, c, d] => some [256 * a + b, 256 * c + d]
  | _ => none

/-- Words between colons, the last two of which may be in the form of bytes if nothing follows
them. -/
def wordsOf? (isLast : Bool) (cs : List Char) : Option (List Nat) :=
  if cs.isEmpty then some []
  else do
    let parts := Text.splitChars ':' cs
    let leading ← parts.dropLast.mapM word?
    let last := parts.getLastD []
    let last ← if isLast && last.contains '.' then dottedWords? last else (word? last).map ([·])
    return leading ++ last

def cutColons : List Char → Option (List Char × List Char)
  | ':' :: ':' :: rest => some ([], rest)
  | c :: rest => (cutColons rest).map fun (before, after) => (c :: before, after)
  | [] => none

/-- The eight words of an address, in which two colons stand for one zero or more. -/
def eightWords? (cs : List Char) : Option (List Nat) :=
  match cutColons cs with
  | none => do
    let words ← wordsOf? true cs
    if cs.isEmpty || words.length != 8 then none else some words
  | some (before, after) => do
    let high ← wordsOf? false before
    let low ← wordsOf? true after
    if high.length + low.length > 7 then none
    else some (high ++ List.replicate (8 - high.length - low.length) 0 ++ low)

/-- The place and the length of the first of the longest runs of zeros. -/
def longestZeros (words : List Nat) : Nat × Nat :=
  let runs := (List.range words.length).map fun place =>
    (place, ((words.drop place).takeWhile (· = 0)).length)
  runs.foldl (fun best run => if best.2 < run.2 then run else best) (0, 0)

def eightWordsText (words : List Nat) : String :=
  let join (words : List Nat) : String :=
    ":".intercalate (words.map fun w => String.ofList (Nat.toDigits 16 w))
  let (place, count) := longestZeros words
  let inner := if count < 2 then join words
    else join (words.take place) ++ "::" ++ join (words.drop (place + count))
  "[" ++ inner ++ "]"

/-! ### Names -/

/-- A character of a name in the form in which names are compared: wide forms of basic
characters become those, and letters are in lower case. -/
def nameChar (c : Char) : List Char :=
  let n := c.toNat
  if n = 0x3002 || n = 0xff61 then ['.']
  else if 0xff01 ≤ n && n ≤ 0xff5e then [(Char.ofNat (n - 0xfee0)).toLower]
  else if [0xad, 0x200b, 0x2060, 0xfeff].contains n then []
  else Text.lowerChar c

def isForbidden (c : Char) : Bool :=
  c.toNat ≤ 0x20 || (0x7f ≤ c.toNat && c.toNat ≤ 0x9f) || hostForbidden.contains c ||
    Text.isBlank c || 0xfff0 ≤ c.toNat && c.toNat ≤ 0xffff

def basicLabel (label : List Char) : List Char :=
  if label.all Text.Punycode.isBasic then label
  else ['x', 'n', '-', '-'] ++ Text.Punycode.encode label

def host? (cs : List Char) : Option String :=
  match cs with
  | '[' :: rest =>
    if rest.getLast? = some ']' then (eightWords? rest.dropLast).map eightWordsText else none
  | cs => do
    let name ← Text.decode? (Text.percentDecode cs)
    let name := name.toList.flatMap nameChar
    if name.isEmpty || name.any isForbidden then none
    let parts := (Text.splitChars '.' name).map basicLabel
    if isNumeric parts then (numericHost? parts).map numericText
    else some (".".intercalate (parts.map String.ofList))

end Workflow.Http
