import Workflow.Json.Document
import Workflow.Text.Class

/-!
# Reading documents from text

Reading goes on as far as the text allows and leaves the fault, if there is one, at
the place of the document where it stopped.  Inside an object reading can go on behind a
member that is at fault: a member that is of no interest is skipped by looser rules,
so both outcomes are kept.
-/

namespace Workflow.Json

/-- The characters still to be read, and the number of bytes before them. -/
structure Cursor where
  rest : List Char
  offset : Nat

namespace Cursor

def start (s : String) : Cursor := ⟨s.toList, 0⟩

def next (c : Cursor) : Cursor :=
  match c.rest with
  | [] => c
  | ch :: rest => ⟨rest, c.offset + ch.utf8Size⟩

def skip (n : Nat) (c : Cursor) : Cursor := ⟨c.rest.drop n, c.offset + n⟩

def isSpace (c : Char) : Bool := c = ' ' || c = '\n' || c = '\t' || c = '\r'

def skipSpace (c : Cursor) : Cursor :=
  let spaces := c.rest.takeWhile isSpace
  c.skip spaces.length

def faultHere (c : Cursor) (e : SyntaxError) : Fault := .atOffset (.syntaxError e) c.offset

/-- A syntax error reported behind the next byte, if there is one. -/
def faultAhead (c : Cursor) (e : SyntaxError) : Fault :=
  .atOffset (.syntaxError e) (if c.rest.isEmpty then c.offset else c.offset + 1)

end Cursor

open Cursor

def readWord : List Char → Cursor → Except Fault Cursor
  | [], c => .ok c
  | expected :: more, c =>
    match c.rest with
    | [] => .error (c.faultHere .endInValue)
    | ch :: _ =>
      if ch = expected then readWord more c.next
      else .error ((c.skip 1).faultHere .expectedWord)

def byteLength (cs : List Char) : Nat := cs.foldl (fun n c => n + c.utf8Size) 0

def readHex (c : Cursor) : Except Fault (Nat × Cursor) :=
  let four := c.rest.take 4
  if byteLength four < 4 then
    .error (.atOffset (.syntaxError .endInString) (c.offset + byteLength c.rest))
  else
    match four.mapM Text.hexDigit? with
    | some digits => .ok (digits.foldl (fun n d => 16 * n + d) 0, c.skip 4)
    | none => .error ((c.skip 4).faultHere .invalidEscape)

def readSecondHalf (high : Nat) (c : Cursor) : Except Fault (Char × Cursor) :=
  match c.rest with
  | [] => .error (c.faultHere .endInString)
  | '\\' :: afterSlash =>
    let c := c.next
    match afterSlash with
    | [] => .error (c.faultHere .endInString)
    | 'u' :: _ => do
      let (low, c) ← readHex c.next
      if 0xdc00 ≤ low && low ≤ 0xdfff then
        .ok (Char.ofNat (0x10000 + (high - 0xd800) * 0x400 + (low - 0xdc00)), c)
      else .error (c.faultHere .loneSurrogate)
    | _ => .error ((c.skip 1).faultHere .endOfHexEscape)
  | _ => .error ((c.skip 1).faultHere .endOfHexEscape)

def readEscape (c : Cursor) : Except Fault (Char × Cursor) :=
  match c.rest with
  | [] => .error (c.faultHere .endInString)
  | ch :: _ =>
    let c := c.skip 1
    match ch with
    | '"' => .ok ('"', c)
    | '\\' => .ok ('\\', c)
    | '/' => .ok ('/', c)
    | 'b' => .ok (Char.ofNat 0x8, c)
    | 'f' => .ok (Char.ofNat 0xc, c)
    | 'n' => .ok ('\n', c)
    | 'r' => .ok ('\r', c)
    | 't' => .ok ('\t', c)
    | 'u' => do
      let (n, c) ← readHex c
      if 0xdc00 ≤ n && n ≤ 0xdfff then .error (c.faultHere .loneSurrogate)
      else if 0xd800 ≤ n && n ≤ 0xdbff then readSecondHalf n c
      else .ok (Char.ofNat n, c)
    | _ => .error (c.faultHere .invalidEscape)

/-- Reads a string behind its opening quote, with the characters so far in reverse. -/
def readString : Nat → List Char → Cursor → Except Fault (String × Cursor)
  | 0, _, c => .error (c.faultHere .endInString)
  | fuel + 1, acc, c =>
    match c.rest with
    | [] => .error (c.faultHere .endInString)
    | '"' :: _ => .ok (String.ofList acc.reverse, c.next)
    | '\\' :: _ => do
      let (ch, c) ← readEscape c.next
      readString fuel (ch :: acc) c
    | ch :: _ =>
      if ch.toNat < 0x20 then .error (c.next.faultHere .controlCharacter)
      else readString fuel (ch :: acc) c.next

/-- Digits taken into a whole number as long as it stays below `2 ^ 64`, and the number of
digits that are left over. -/
def takeDigits (n : Nat) : List Char → Nat × Nat
  | [] => (n, 0)
  | d :: ds =>
    let m := 10 * n + (d.toNat - '0'.toNat)
    if m < Nat.pow 2 64 then takeDigits m ds else (n, ds.length + 1)

/-- A double times a power of ten, none if it is too large.  Powers below `1e-308` are
taken in steps. -/
def scaleDecimal : Nat → Float → Int → Option Float
  | 0, x, _ => some x
  | fuel + 1, x, e =>
    if e.natAbs ≤ 308 then
      let power := Float.ofScientific 1 false e.natAbs
      if 0 ≤ e then
        let y := x * power
        if y.isInf then none else some y
      else some (x / power)
    else if x == 0.0 then some x
    else if 0 ≤ e then none
    else scaleDecimal fuel (x / Float.ofScientific 1 false 308) (e + 308)

/-- The double for digits and an exponent, reported at the cursor if it is too large. -/
def doubleOf (negative : Bool) (digits : Nat) (exponent : Int) (c : Cursor) :
    Except Fault (Number × Cursor) :=
  match scaleDecimal 16 (Float.ofNat digits) exponent with
  | some x => .ok (.double (if negative then -x else x), c)
  | none => .error (c.faultHere .numberOutOfRange)

def greatestExponent : Nat := Nat.pow 2 31 - 1

def clampExponent (e : Int) : Int := max (-Nat.pow 2 31) (min e greatestExponent)

/-- Reads the digits of an exponent, given the value so far; none is the answer for one
that is too large. -/
def readExponentDigits : Nat → Nat → Cursor → Option Nat × Cursor
  | 0, e, c => (some e, c)
  | fuel + 1, e, c =>
    match c.rest with
    | d :: _ =>
      if d.isDigit then
        let e := 10 * e + (d.toNat - '0'.toNat)
        if greatestExponent < e then (none, c.next) else readExponentDigits fuel e c.next
      else (some e, c)
    | [] => (some e, c)

def skipDigits (c : Cursor) : Cursor := c.skip (c.rest.takeWhile Char.isDigit).length

def readExponent (negative : Bool) (digits : Nat) (exponent : Int) (c : Cursor) :
    Except Fault (Number × Cursor) :=
  let (down, c) := match c.rest with
    | '+' :: _ => (false, c.next)
    | '-' :: _ => (true, c.next)
    | _ => (false, c)
  match c.rest with
  | [] => .error (c.faultHere .endInValue)
  | d :: _ =>
    if d.isDigit then
      match readExponentDigits c.rest.length (d.toNat - '0'.toNat) c.next with
      | (some e, c) =>
        doubleOf negative digits (clampExponent (if down then exponent - e else exponent + e)) c
      | (none, c) =>
        if digits != 0 && !down then .error (c.faultHere .numberOutOfRange)
        else .ok (.double (if negative then -0.0 else 0.0), skipDigits c)
    else .error ((c.skip 1).faultHere .invalidNumber)

/-- Reads an exponent if one follows, else ends the number. -/
def readExponent? (negative : Bool) (digits : Nat) (exponent : Int) (c : Cursor) :
    Except Fault (Number × Cursor) :=
  match c.rest with
  | 'e' :: _ | 'E' :: _ => readExponent negative digits exponent c.next
  | _ => doubleOf negative digits exponent c

def readFraction (negative : Bool) (digits : Nat) (exponent : Int) (c : Cursor) :
    Except Fault (Number × Cursor) :=
  let fraction := c.rest.takeWhile Char.isDigit
  let (digits, left) := takeDigits digits fraction
  if fraction.isEmpty then
    .error (c.faultAhead (if c.rest.isEmpty then .endInValue else .invalidNumber))
  else
    readExponent? negative digits (exponent - (fraction.length - left : Nat))
      (c.skip fraction.length)

def wholeOf (negative : Bool) (digits : Nat) : Number :=
  if !negative then .whole digits
  else if digits = 0 then .double (-0.0)
  else if digits ≤ Nat.pow 2 63 then .whole (-digits)
  else .double (-Float.ofNat digits)

def readNumber (negative : Bool) (c : Cursor) : Except Fault (Number × Cursor) :=
  match c.rest with
  | [] => .error (c.faultHere .endInValue)
  | d :: _ =>
    if !d.isDigit then .error ((c.skip 1).faultHere .invalidNumber)
    else
      let digits := if d = '0' then ['0'] else c.rest.takeWhile Char.isDigit
      let c := c.skip digits.length
      let (n, left) := takeDigits 0 digits
      match c.rest with
      | '.' :: _ => readFraction negative n left c.next
      | 'e' :: _ | 'E' :: _ => readExponent negative n left c.next
      | e :: _ =>
        if d = '0' && e.isDigit then .error (c.faultAhead .invalidNumber)
        else if left = 0 then .ok (wholeOf negative n, c)
        else doubleOf negative n left c
      | [] => if left = 0 then .ok (wholeOf negative n, c) else doubleOf negative n left c

/-! ### Skipping values -/

def skipString : Nat → Cursor → Except Fault Cursor
  | 0, c => .error (c.faultHere .endInString)
  | fuel + 1, c =>
    match c.rest with
    | [] => .error (c.faultHere .endInString)
    | '"' :: _ => .ok c.next
    | '\\' :: 'u' :: _ => do
      let (_, c) ← readHex (c.skip 2)
      skipString fuel c
    | '\\' :: ch :: _ =>
      if ch ∈ ['"', '\\', '/', 'b', 'f', 'n', 'r', 't'] then skipString fuel (c.skip 2)
      else .error ((c.skip 2).faultHere .invalidEscape)
    | '\\' :: [] => .error (c.next.faultHere .endInString)
    | ch :: _ =>
      if ch.toNat < 0x20 then .error (c.faultHere .controlCharacter) else skipString fuel c.next

/-- The cursor behind an exponent that is skipped, if there is one. -/
def skipExponent? (c : Cursor) : Except Fault Cursor :=
  let body (c : Cursor) : Except Fault Cursor :=
    let c := match c.rest with
      | '+' :: _ | '-' :: _ => c.next
      | _ => c
    match c.rest with
    | d :: _ =>
      if d.isDigit then .ok (skipDigits c) else .error ((c.skip 1).faultHere .invalidNumber)
    | [] => .error (c.faultHere .invalidNumber)
  match c.rest with
  | 'e' :: _ | 'E' :: _ => body c.next
  | _ => .ok c

def skipNumber (c : Cursor) : Except Fault Cursor :=
  match c.rest with
  | [] => .error (c.faultHere .invalidNumber)
  | d :: _ =>
    if !d.isDigit then .error ((c.skip 1).faultHere .invalidNumber)
    else
      let c := if d = '0' then c.next else skipDigits c
      match c.rest with
      | '.' :: _ =>
        let c := c.next
        if (c.rest.takeWhile Char.isDigit).isEmpty then .error (c.faultAhead .invalidNumber)
        else skipExponent? (skipDigits c)
      | e :: _ =>
        if d = '0' && e.isDigit then .error (c.faultAhead .invalidNumber) else skipExponent? c
      | [] => .ok c

mutual

def skipValue : Nat → Cursor → Except Fault Cursor
  | 0, c => .error (c.faultAhead .endInValue)
  | fuel + 1, c =>
    let c := c.skipSpace
    match c.rest with
    | [] => .error (c.faultAhead .endInValue)
    | 'n' :: _ => readWord ['u', 'l', 'l'] c.next
    | 't' :: _ => readWord ['r', 'u', 'e'] c.next
    | 'f' :: _ => readWord ['a', 'l', 's', 'e'] c.next
    | '-' :: _ => skipNumber c.next
    | '"' :: _ => skipString fuel c.next
    | '[' :: _ =>
      let c := c.next.skipSpace
      match c.rest with
      | [] => .error (c.faultAhead .endInArray)
      | ']' :: _ => .ok c.next
      | _ => skipItems fuel c
    | '\x7b' :: _ =>
      let c := c.next.skipSpace
      match c.rest with
      | [] => .error (c.faultAhead .endInObject)
      | '\x7d' :: _ => .ok c.next
      | _ => skipMembers fuel c
    | d :: _ => if d.isDigit then skipNumber c else .error (c.faultAhead .expectedValue)

def skipItems : Nat → Cursor → Except Fault Cursor
  | 0, c => .error (c.faultAhead .endInArray)
  | fuel + 1, c => do
    let c := (← skipValue fuel c).skipSpace
    match c.rest with
    | [] => .error (c.faultAhead .endInArray)
    | ']' :: _ => .ok c.next
    | ',' :: _ => skipItems fuel c.next
    | _ => .error (c.faultAhead .expectedArrayEnd)

def skipMembers : Nat → Cursor → Except Fault Cursor
  | 0, c => .error (c.faultAhead .endInObject)
  | fuel + 1, c => do
    let c := c.skipSpace
    match c.rest with
    | [] => .error (c.faultAhead .endInObject)
    | '"' :: _ =>
      let c := (← skipString fuel c.next).skipSpace
      match c.rest with
      | [] => .error (c.faultAhead .endInObject)
      | ':' :: _ =>
        let c := (← skipValue fuel c.next).skipSpace
        match c.rest with
        | [] => .error (c.faultAhead .endInObject)
        | '\x7d' :: _ => .ok c.next
        | ',' :: _ => skipMembers fuel c.next
        | _ => .error (c.faultAhead .expectedObjectEnd)
      | _ => .error (c.faultAhead .expectedColon)
    | _ => .error (c.faultAhead .keyNotText)

end

/-! ### Documents -/

inductive Enclosing where
  | nothing
  | array
  | object

/-- The offset at which the enclosing array or object stands when it is closed at the
cursor: behind its bracket if that follows, and behind a comma in an array. -/
def Enclosing.resume (e : Enclosing) (c : Cursor) : Nat :=
  let c := c.skipSpace
  match e, c.rest with
  | .array, ']' :: _ => c.offset + 1
  | .array, ',' :: _ => c.next.skipSpace.offset
  | .object, '\x7d' :: _ => c.offset + 1
  | _, _ => c.offset

def nestingLimit : Nat := 127

def stopped {α : Type} (f : Fault) : Document × Option α := (.bad f, none)

mutual

/-- Reads a value.  The cursor behind it is missing if reading stopped inside. -/
def readValue : Nat → Nat → Enclosing → Cursor → Document × Option Cursor
  | 0, _, _, c => stopped (c.faultAhead .endInValue)
  | fuel + 1, depth, inside, c =>
    let c := c.skipSpace
    let finish (make : Origin → Document) (after : Cursor) : Document × Option Cursor :=
      (make (.text ⟨c.offset, after.offset, inside.resume after⟩), some after)
    let word (letters : List Char) (make : Origin → Document) : Document × Option Cursor :=
      match readWord letters c.next with
      | .ok after => finish make after
      | .error f => stopped f
    let number (negative : Bool) (digits : Cursor) : Document × Option Cursor :=
      match readNumber negative digits with
      | .ok (n, after) => finish (fun o => .num o n) after
      | .error f => stopped f
    match c.rest with
    | [] => stopped (c.faultAhead .endInValue)
    | 'n' :: _ => word ['u', 'l', 'l'] .null
    | 't' :: _ => word ['r', 'u', 'e'] (fun o => .bool o true)
    | 'f' :: _ => word ['a', 'l', 's', 'e'] (fun o => .bool o false)
    | '-' :: _ => number true c.next
    | '"' :: _ =>
      match readString fuel [] c.next with
      | .ok (s, after) => finish (fun o => .str o s) after
      | .error f => stopped f
    | '[' :: _ =>
      match depth with
      | 0 => stopped (c.faultAhead .tooDeep)
      | depth + 1 =>
        let (items, fault, after) := readItems fuel depth true c.next
        match after with
        | some after => finish (fun o => .arr o items fault) after
        | none => (.arr (.text ⟨c.offset, c.offset, c.offset⟩) items fault, none)
    | '\x7b' :: _ =>
      match depth with
      | 0 => stopped (c.faultAhead .tooDeep)
      | depth + 1 =>
        let (members, fault, after) := readMembers fuel depth true c.next
        match after with
        | some after => finish (fun o => .obj o members fault) after
        | none => (.obj (.text ⟨c.offset, c.offset, c.offset⟩) members fault, none)
    | d :: _ => if d.isDigit then number false c else stopped (c.faultAhead .expectedValue)

def readItems : Nat → Nat → Bool → Cursor → List Document × Option Fault × Option Cursor
  | 0, _, _, c => ([], some (c.faultAhead .endInArray), none)
  | fuel + 1, depth, first, c =>
    let c := c.skipSpace
    let item (c : Cursor) : List Document × Option Fault × Option Cursor :=
      match readValue fuel depth .array c with
      | (d, none) => ([d], none, none)
      | (d, some after) =>
        let (items, fault, after) := readItems fuel depth false after
        (d :: items, fault, after)
    match c.rest with
    | [] => ([], some (c.faultAhead .endInArray), none)
    | ']' :: _ => ([], none, some c.next)
    | ch :: _ =>
      if first then item c
      else if ch = ',' then
        let c := c.next.skipSpace
        match c.rest with
        | [] => ([], some (c.faultAhead .endInValue), none)
        | ']' :: _ => ([], some (c.faultAhead .trailingComma), none)
        | _ => item c
      else ([], some (c.faultAhead .expectedArrayEnd), none)

def readMembers : Nat → Nat → Bool → Cursor →
    List (String × Nat × Document) × Option Fault × Option Cursor
  | 0, _, _, c => ([], some (c.faultAhead .endInObject), none)
  | fuel + 1, depth, first, c =>
    let c := c.skipSpace
    let member (c : Cursor) : List (String × Nat × Document) × Option Fault × Option Cursor :=
      match readString fuel [] c.next with
      | .error f => ([], some f, none)
      | .ok (key, afterKey) =>
        let resume := Enclosing.object.resume afterKey
        let colon := afterKey.skipSpace
        match colon.rest with
        | [] => ([(key, resume, .bad (colon.faultAhead .endInObject))],
            some (colon.faultAhead .endInObject), none)
        | ':' :: _ =>
          let (d, after) := readValue fuel depth .object colon.next
          let skipped : Except Fault Cursor := match after with
            | some after => .ok after
            | none => skipValue (2 * colon.rest.length + 2) colon.next
          match skipped with
          | .error f => ([(key, resume, d)], some f, none)
          | .ok after =>
            let (members, fault, after) := readMembers fuel depth false after
            ((key, resume, d) :: members, fault, after)
        | _ => ([(key, resume, .bad (colon.faultAhead .expectedColon))],
            some (colon.faultAhead .expectedColon), none)
    match c.rest with
    | [] => ([], some (c.faultAhead .endInObject), none)
    | '\x7d' :: _ => ([], none, some c.next)
    | ch :: _ =>
      if first then
        if ch = '"' then member c else ([], some (c.faultAhead .keyNotText), none)
      else if ch = ',' then
        let c := c.next.skipSpace
        match c.rest with
        | [] => ([], some (c.faultAhead .endInValue), none)
        | '"' :: _ => member c
        | '\x7d' :: _ => ([], some (c.faultAhead .trailingComma), none)
        | _ => ([], some (c.faultAhead .keyNotText), none)
      else ([], some (c.faultAhead .expectedObjectEnd), none)

end

/-- The document of a whole text, and the fault of what follows its value. -/
def readDocument (s : String) : Document × Option Fault :=
  let c := Cursor.start s
  match readValue (2 * c.rest.length + 2) nestingLimit .nothing c with
  | (d, none) => (d, none)
  | (d, some after) =>
    let after := after.skipSpace
    (d, if after.rest.isEmpty then none else some (after.faultAhead .trailingCharacters))

/-- The value of a whole text, or the message that says what is wrong with it. -/
def read (s : String) : Except String Json :=
  let (d, trailing) := readDocument s
  match d.toJson with
  | .error f => .error (f.message s)
  | .ok v =>
    match trailing with
    | some f => .error (f.message s)
    | none => .ok v

end Workflow.Json
