import Workflow.Text.Case
import Workflow.Text.Class
import Workflow.Text.Quoted
import Workflow.Time.Instant

/-!
# Cron expressions

Five fields say at which minutes something is due: minute, hour, day of the month,
month and day of the week.  A field is `*`, or a list of numbers, ranges and steps.
Days can also be marked as the nearest working day, and days of the week as the first
to fifth or the last one of the month.  If both fields for days are restricted, one of
them is enough.
-/

namespace Workflow.Cron

/-- What a value of a field stands for: itself every time, its occurrence in the month with
a given number or the last one, or the working day nearest to it. -/
inductive Mark where
  | every
  | nth (n : Nat)
  | last
  | nearest
  deriving Repr, DecidableEq

def Mark.bit : Mark → Nat
  | .every => 0
  | .nth n => n
  | .last => 6
  | .nearest => 7

/-- What can be wrong with an item of a field. -/
inductive FieldError where
  | numberOutOfBounds
  | invalidNumber
  | invalidStep
  | zeroStep
  | invalidRangeStart
  | invalidRangeEnd
  | rangeOutOfBounds
  | rangeShape
  | invalidStart
  | invalidStepStart
  | invalidStepEnd
  | stepOutOfBounds
  | stepShape
  | stepOverflow
  | invalidNth
  | nthOutOfBounds
  | nthNotAllowed
  | lastNotAllowed
  | invalidNearest
  | nearestOutOfBounds
  | unsupported (mark : Mark) (supported : List Mark)
  deriving Repr, DecidableEq

def bitText (n : Nat) : String :=
  String.ofList ((List.range 8).reverse.map fun i => if n.testBit i then '1' else '0')

def FieldError.message : FieldError → String
  | .numberOutOfBounds => "Number out of bounds."
  | .invalidNumber => "Invalid number."
  | .invalidStep => "Invalid step."
  | .zeroStep => "Step cannot be zero."
  | .invalidRangeStart => "Invalid start of range."
  | .invalidRangeEnd => "Invalid end of range."
  | .rangeOutOfBounds => "Range out of bounds."
  | .rangeShape => "Invalid range syntax."
  | .invalidStart => "Invalid start."
  | .invalidStepStart => "Invalid range start."
  | .invalidStepEnd => "Invalid range end."
  | .stepOutOfBounds => "Range is out of bounds in stepping."
  | .stepShape => "Invalid stepped range syntax."
  | .stepOverflow => "Value exceeded max after stepping."
  | .invalidNth => "Invalid nth specifier."
  | .nthOutOfBounds => "Nth specifier out of bounds."
  | .nthNotAllowed => "Nth specifier # not allowed in the current field."
  | .lastNotAllowed => "L not allowed in the current field."
  | .invalidNearest => "Invalid day for closest weekday."
  | .nearestOutOfBounds => "Day for closest weekday out of bounds."
  | .unsupported mark supported =>
    "Bit 0b" ++ bitText (Nat.pow 2 mark.bit) ++ " is not supported by the current features 0b" ++
      bitText (supported.foldl (fun bits m => bits + Nat.pow 2 m.bit) 0) ++ "."

/-- What the values of a field can be. -/
structure FieldKind where
  least : Nat
  greatest : Nat
  marks : List Mark

namespace FieldKind

def minute : FieldKind := ⟨0, 59, [.every, .last]⟩
def hour : FieldKind := ⟨0, 23, [.every, .last]⟩
def dayOfMonth : FieldKind := ⟨1, 31, [.every, .last, .nearest]⟩
def month : FieldKind := ⟨1, 12, [.every, .last]⟩
def dayOfWeek : FieldKind :=
  ⟨0, 7, [.every, .nth 1, .nth 2, .nth 3, .nth 4, .nth 5, .last]⟩

def countable (k : FieldKind) : Bool := (Mark.nth 1) ∈ k.marks

def contains (k : FieldKind) (n : Nat) : Bool := k.least ≤ n && n ≤ k.greatest

end FieldKind

/-- What a field asks for: values with marks, the end of the month, or anything. -/
structure Field where
  star : Bool
  marked : List (Nat × Mark)
  monthEnd : Bool
  deriving Repr, DecidableEq

namespace Field

def has (f : Field) (value : Nat) (mark : Mark) : Bool := f.marked.contains (value, mark)

def none : Field := ⟨false, [], false⟩

end Field

/-- The number below 256 that a text gives: digits, with an optional plus sign. -/
def number? (s : String) : Option Nat :=
  let digits := match s.toList with
    | '+' :: rest => rest
    | cs => cs
  if digits.isEmpty || !digits.all Char.isDigit then none
  else
    let n := digits.foldl (fun n d => 10 * n + (d.toNat - '0'.toNat)) 0
    if n < 256 then some n else none

def unmarked (s : String) : String := (Text.splitAt '#' s).headD ""

def markOf (s : String) : Except FieldError Mark :=
  if ['l'].isSuffixOf s.toList then .ok .last
  else
    match s.toList.dropWhile (· != '#') with
    | [] => .ok .every
    | _ :: digits =>
      match number? (String.ofList digits) with
      | none => .error .invalidNth
      | some n => if n = 0 || 5 < n then .error .nthOutOfBounds else .ok (.nth n)

/-- Values with a mark, if the field can have it. -/
def mark (k : FieldKind) (values : List Nat) (m : Mark) : Except FieldError (List (Nat × Mark)) :=
  if values.isEmpty || m ∈ k.marks then .ok (values.map fun n => (n, m))
  else .error (.unsupported m k.marks)

def number (s : String) (e : FieldError) : Except FieldError Nat :=
  match number? s with
  | some n => .ok n
  | none => .error e

def steps (start stop step : Nat) : List Nat :=
  (List.range ((stop - start) / step + 1)).map fun i => start + i * step

def stepped (k : FieldKind) (s : String) : Except FieldError (List (Nat × Mark)) :=
  match Text.splitAt '/' s with
  | [range, step] => do
    let step ← number (unmarked step) .invalidStep
    if step = 0 then .error .zeroStep
    else do
      let (start, stop) ←
        if range = "*" then .ok (k.least, k.greatest)
        else
          match Text.splitAt '-' range with
          | [single] => do
            let start ← number single .invalidStart
            .ok (start, k.greatest)
          | [a, b] => do
            let start ← number a .invalidStepStart
            let stop ← number b .invalidStepEnd
            .ok (start, stop)
          | _ => .error .rangeShape
      if start < k.least || k.greatest < stop || stop < start then .error .stepOutOfBounds
      else do
        let m ← markOf s
        let values := steps start stop step
        let marked ← mark k values m
        if values.getLastD 0 + step < 256 then .ok marked else .error .stepOverflow
  | _ => .error .stepShape

def ranged (k : FieldKind) (s : String) : Except FieldError (List (Nat × Mark)) :=
  match (Text.splitAt '-' s).map Text.trim with
  | [a, b] => do
    let start ← number (unmarked a) .invalidRangeStart
    let stop ← number (unmarked b) .invalidRangeEnd
    if stop < start || start < k.least || k.greatest < stop then .error .rangeOutOfBounds
    else do
      let m ← markOf s
      mark k (steps start stop 1) m
  | _ => .error .rangeShape

def nearestDay (k : FieldKind) (s : String) : Except FieldError (List (Nat × Mark)) := do
  let day ← number (String.ofList (s.toList.takeWhile (· != 'w'))) .invalidNearest
  if k.contains day then mark k [day] .nearest else .error .nearestOutOfBounds

/-- A number, with or without a mark. -/
def single (k : FieldKind) (s : String) : Except FieldError (List (Nat × Mark)) :=
  let cs := s.toList
  let s :=
    if ['l'].isSuffixOf cs && !cs.contains '#' then Text.replaceAll "l" "#l" s else s
  if s.toList.contains '#' && !k.countable then .error .nthNotAllowed
  else if s.toList.contains 'l' && !k.countable then .error .lastNotAllowed
  else do
    let m ← markOf s
    let n ← number (unmarked s) .invalidNumber
    if k.contains n then mark k [n] m else .error .numberOutOfBounds

def item (k : FieldKind) (s : String) : Except FieldError Field :=
  let values (marked : Except FieldError (List (Nat × Mark))) : Except FieldError Field :=
    marked.map fun marked => { Field.none with marked }
  let cs := s.toList
  if cs.isEmpty then .ok Field.none
  else if cs.contains '/' then values (stepped k s)
  else if cs.contains '-' then values (ranged k s)
  else if cs.contains 'w' then values (nearestDay k s)
  else if s = "l" then .ok { Field.none with monthEnd := true }
  else values (single k s)

def field (k : FieldKind) (s : String) : Except FieldError Field :=
  if s = "*" then .ok ⟨true, (steps k.least k.greatest 1).map fun n => (n, .every), false⟩
  else do
    let items ← ((Text.splitAt ',' s).map Text.trim).mapM (item k)
    .ok ⟨false, items.flatMap Field.marked, items.any Field.monthEnd⟩

/-- Days of the week in which seven is zero, unless it is marked as the last one. -/
def foldSunday (f : Field) : Field :=
  { f with
    marked := f.marked.map fun (n, m) => if n = 7 && m != Mark.last then (0, m) else (n, m) }

def aliases : List (String × String) :=
  [("-sun", "-7"), ("sun", "0"), ("mon", "1"), ("tue", "2"), ("wed", "3"), ("thu", "4"),
    ("fri", "5"), ("sat", "6"), ("jan", "1"), ("feb", "2"), ("mar", "3"), ("apr", "4"),
    ("may", "5"), ("jun", "6"), ("jul", "7"), ("aug", "8"), ("sep", "9"), ("oct", "10"),
    ("nov", "11"), ("dec", "12")]

/-- An expression in lower case, with question marks as stars and names as numbers. -/
def plain (expression : String) : String :=
  aliases.foldl (fun s (name, n) => Text.replaceAll name n s)
    (Text.lower (Text.replaceAll "?" "*" expression))

end Cron

/-- Why a text is not a cron expression. -/
inductive CronError where
  | fieldCount (count : Nat)
  | invalid (expression : String) (e : Cron.FieldError)
  deriving Repr, DecidableEq

def CronError.message : CronError → String
  | .fieldCount count => "expected 5 cron fields, found " ++ Decimal.intText count
  | .invalid expression e =>
    "invalid cron expression '" ++ expression ++ "': Component error: " ++ e.message

/-- A cron expression: its text and its fields. -/
structure Cron where
  expression : String
  minute : Cron.Field
  hour : Cron.Field
  dayOfMonth : Cron.Field
  month : Cron.Field
  dayOfWeek : Cron.Field

namespace Cron

def ofFields (expression minute hour dayOfMonth month dayOfWeek : String) :
    Except FieldError Cron := do
  let minute ← field .minute minute
  let hour ← field .hour hour
  let dayOfMonth ← field .dayOfMonth dayOfMonth
  let month ← field .month month
  let dayOfWeek ← field .dayOfWeek dayOfWeek
  .ok ⟨expression, minute, hour, dayOfMonth, month, foldSunday dayOfWeek⟩

def parse (expression : String) : Except CronError Cron :=
  match Text.words (plain expression) with
  | [minute, hour, dayOfMonth, month, dayOfWeek] =>
    (ofFields expression minute hour dayOfMonth month dayOfWeek).mapError (.invalid expression)
  | fields => .error (.fieldCount fields.length)

def debugText (c : Cron) : String := "CronPattern(" ++ Text.quoted c.expression ++ ")"

def isWorkingDay (weekday : Nat) : Bool := weekday != 0 && weekday != 6

/-- Whether a date is the working day nearest to a marked day of the month: that day itself,
the Friday before a Saturday, or the Monday after a Sunday. -/
def isNearest (f : Field) (d : Time.Date) : Bool :=
  let days := d.toDays
  let weekday := Time.weekday days
  isWorkingDay weekday &&
    (f.has d.day .nearest ||
      (weekday = 1 && f.has (Time.Date.ofDays (days - 1)).day .nearest) ||
      (weekday = 5 && f.has (Time.Date.ofDays (days + 1)).day .nearest))

def admitsDay (f : Field) (d : Time.Date) : Bool :=
  f.has d.day .every || (f.monthEnd && d.day = Time.daysInMonth d.year d.month) || isNearest f d

def admitsWeekday (f : Field) (d : Time.Date) : Bool :=
  let weekday := Time.weekday d.toDays
  f.has weekday .every || f.has weekday (.nth ((d.day - 1) / 7 + 1)) ||
    (f.has weekday .last && Time.daysInMonth d.year d.month < d.day + 7)

/-- Whether a date is asked for: by both fields for days if one of them is a star, else by
either. -/
def admitsDate (c : Cron) (d : Time.Date) : Bool :=
  let day := admitsDay c.dayOfMonth d
  let weekday := admitsWeekday c.dayOfWeek d
  if c.dayOfWeek.star then day
  else if c.dayOfMonth.star then weekday
  else day || weekday

/-- Whether something is due in the minute of an instant, in its own offset. -/
def matches? (c : Cron) (at_ : Time.Zoned) : Bool :=
  let t := at_.civil
  c.minute.has t.minute .every && c.hour.has t.hour .every && c.month.has t.date.month .every &&
    c.admitsDate t.date

end Cron

end Workflow
