import Workflow.Text.Class
import Workflow.Decimal.Layout
import Workflow.Time.Calendar

/-!
# Instants

A point in time, with nanoseconds, and the time of day it is at some distance from
UTC.  A leap second is kept as the second before it with a second's worth of
nanoseconds too many.  Texts of instants follow RFC 3339; when they are read, blanks
between the parts are allowed.
-/

namespace Workflow.Time

/-- Seconds since the first of January 1970 in UTC, and nanoseconds on top. -/
structure Instant where
  seconds : Int
  nanos : Nat
  deriving Repr, DecidableEq

/-- An instant seen at an offset from UTC, in seconds to the east. -/
structure Zoned where
  instant : Instant
  offset : Int
  deriving Repr, DecidableEq

def secondsPerDay : Int := 86400

/-- The parts of an instant as a clock and a calendar show them at an offset. -/
structure Civil where
  date : Date
  weekday : Nat
  hour : Nat
  minute : Nat
  second : Nat
  nanos : Nat

def Zoned.civil (z : Zoned) : Civil :=
  let seconds := z.instant.seconds + z.offset
  let days := Int.fdiv seconds secondsPerDay
  let rest := (seconds - days * secondsPerDay).toNat
  let leap := 1000000000 ≤ z.instant.nanos
  { date := Date.ofDays days
    weekday := weekday days
    hour := rest / 3600
    minute := rest / 60 % 60
    second := rest % 60 + if leap then 1 else 0
    nanos := if leap then z.instant.nanos - 1000000000 else z.instant.nanos }

def Instant.utc (i : Instant) : Zoned := ⟨i, 0⟩

def Instant.addNanos (i : Instant) (n : Int) : Instant :=
  let total := i.seconds * 1000000000 + i.nanos + n
  ⟨Int.fdiv total 1000000000, (total - Int.fdiv total 1000000000 * 1000000000).toNat⟩

/-! ### Texts -/

def padded (width n : Nat) : List Char :=
  let digits := Decimal.digitsOf n
  List.replicate (width - digits.length) '0' ++ digits

/-- A year: four digits, and a sign for one that does not fit. -/
def yearText (year : Int) : List Char :=
  if 0 ≤ year && year ≤ 9999 then padded 4 year.toNat
  else (if year < 0 then '-' else '+') :: padded 4 year.natAbs

/-- A fraction of a second in three, six or nine digits, whichever is exact first. -/
def fractionText (nanos : Nat) : List Char :=
  if nanos = 0 then []
  else if nanos % 1000000 = 0 then '.' :: padded 3 (nanos / 1000000)
  else if nanos % 1000 = 0 then '.' :: padded 6 (nanos / 1000)
  else '.' :: padded 9 nanos

/-- Date and time of day, without the offset. -/
def Civil.text (c : Civil) : List Char :=
  yearText c.date.year ++ '-' :: padded 2 c.date.month ++ '-' :: padded 2 c.date.day ++
    'T' :: padded 2 c.hour ++ ':' :: padded 2 c.minute ++ ':' :: padded 2 c.second ++
    fractionText c.nanos

/-- An instant in UTC, marked by a `Z`. -/
def Instant.text (i : Instant) : String := String.ofList (i.utc.civil.text ++ ['Z'])

def Instant.offsetText (i : Instant) : String :=
  String.ofList (i.utc.civil.text ++ ['+', '0', '0', ':', '0', '0'])

/-! ### Reading -/

/-- Why a text is not an instant. -/
inductive TimeError where
  | outOfRange
  | invalid
  | tooShort
  | tooLong
  deriving Repr, DecidableEq

def TimeError.message : TimeError → String
  | .outOfRange => "input is out of range"
  | .invalid => "input contains invalid characters"
  | .tooShort => "premature end of input"
  | .tooLong => "trailing input"

def skipBlanks (cs : List Char) : List Char := cs.dropWhile Text.isBlank

/-- Reads a number of at least one and at most `width` digits. -/
def readDigits (width : Nat) (cs : List Char) : Except TimeError (Nat × List Char) :=
  let digits := (cs.take width).takeWhile Char.isDigit
  if digits.isEmpty then .error (if cs.isEmpty then .tooShort else .invalid)
  else
    let n := digits.foldl (fun n d => 10 * n + (d.toNat - '0'.toNat)) 0
    if n < Nat.pow 2 63 then .ok (n, cs.drop digits.length) else .error .outOfRange

/-- Reads a number of at most two digits behind blanks, within bounds. -/
def readBounded (least greatest : Nat) (cs : List Char) : Except TimeError (Nat × List Char) := do
  let (n, rest) ← readDigits 2 (skipBlanks cs)
  if least ≤ n && n ≤ greatest then .ok (n, rest) else .error .outOfRange

def readYear (cs : List Char) : Except TimeError (Int × List Char) := do
  let cs := skipBlanks cs
  let (year, rest) ← match cs with
    | '-' :: digits => do
      let (n, rest) ← readDigits digits.length digits
      pure (-(n : Int), rest)
    | '+' :: digits => do
      let (n, rest) ← readDigits digits.length digits
      pure ((n : Int), rest)
    | digits => do
      let (n, rest) ← readDigits 4 digits
      pure ((n : Int), rest)
  if -Nat.pow 2 31 ≤ year && year < Nat.pow 2 31 then .ok (year, rest) else .error .outOfRange

def readMark (mark : Char) (cs : List Char) : Except TimeError (List Char) :=
  match skipBlanks cs with
  | [] => .error .tooShort
  | c :: rest => if c = mark then .ok rest else .error .invalid

/-- Reads a fraction of a second, if there is one.  Digits behind the ninth are ignored. -/
def readFraction (cs : List Char) : Except TimeError (Nat × List Char) :=
  match cs with
  | '.' :: digits => do
    let (n, rest) ← readDigits 9 digits
    let count := digits.length - rest.length
    pure (n * Nat.pow 10 (9 - count), rest.dropWhile Char.isDigit)
  | _ => .ok (0, cs)

def twoDigits? (a b : Char) : Option Nat :=
  if a.isDigit && b.isDigit then some (10 * (a.toNat - '0'.toNat) + (b.toNat - '0'.toNat))
  else none

/-- Reads an offset: `Z`, `UTC`, or hours and minutes with a sign. -/
def readOffset (cs : List Char) : Except TimeError (Int × List Char) :=
  let cs := skipBlanks cs
  let east (digits : List Char) : Except TimeError (Int × List Char) :=
    match digits with
    | a :: b :: rest =>
      match twoDigits? a b with
      | none => .error .invalid
      | some hours =>
        match rest.dropWhile (fun c => c = ':' || Text.isBlank c) with
        | c :: d :: rest =>
          match twoDigits? c d with
          | none => .error .invalid
          | some minutes =>
            if minutes < 60 then .ok (hours * 3600 + minutes * 60, rest)
            else .error .outOfRange
        | _ => .error .tooShort
    | _ => .error .tooShort
  match cs with
  | [] => .error .tooShort
  | 'Z' :: rest | 'z' :: rest => .ok (0, rest)
  | '+' :: rest => east rest
  | c :: rest =>
    if (cs.take 3).map Char.toUpper = ['U', 'T', 'C'] then .ok (0, cs.drop 3)
    else if c = '-' || c.toNat = 0x2212 then do
      let (offset, rest) ← east rest
      pure (-offset, rest)
    else .error .invalid

def yearInRange (year : Int) : Bool := -262143 ≤ year && year ≤ 262142

def Zoned.parse (s : String) : Except TimeError Zoned := do
  let (year, cs) ← readYear s.toList
  let cs ← readMark '-' cs
  let (month, cs) ← readBounded 1 12 cs
  let cs ← readMark '-' cs
  let (day, cs) ← readBounded 1 31 cs
  let cs ← match cs with
    | 't' :: rest | 'T' :: rest | ' ' :: rest => pure rest
    | _ :: _ => .error .invalid
    | [] => .error .tooShort
  let (hour, cs) ← readBounded 0 23 cs
  let cs ← readMark ':' cs
  let (minute, cs) ← readBounded 0 59 cs
  let cs ← readMark ':' cs
  let (second, cs) ← readBounded 0 60 cs
  let (nanos, cs) ← readFraction cs
  let (offset, cs) ← readOffset cs
  if !(skipBlanks cs).isEmpty then .error .tooLong
  else
    let date : Date := ⟨year, month, day⟩
    if !(date.exists && yearInRange year) || offset ≤ -secondsPerDay || secondsPerDay ≤ offset then
      .error .outOfRange
    else
      let (second, nanos) := if second = 60 then (59, nanos + 1000000000) else (second, nanos)
      let local_ := date.toDays * secondsPerDay + hour * 3600 + minute * 60 + second
      pure ⟨⟨local_ - offset, nanos⟩, offset⟩

/-- The instant a text gives, or the message that says what is wrong with it. -/
def Instant.parse (s : String) : Except String Instant :=
  match Zoned.parse s with
  | .ok z => .ok z.instant
  | .error e => .error e.message

end Workflow.Time
