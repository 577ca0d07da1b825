import Workflow.Store.Row

/-!
# Statements

The statements that a store sends to a database of tables.  A statement has a text, in
which numbered parameters stand for values, and the list of these values.
-/

namespace Workflow.Sql

/-- A value in a column.  Null in a column for values of the data format differs from an
empty column. -/
inductive Cell where
  | null
  | uuid (u : Uuid)
  | text (s : String)
  | bool (b : Bool)
  | int (i : Int)
  | time (i : Time.Instant)
  | json (v : Json)

def epochNanos : Int := 946684800 * 1000000000

/-- An instant as a database keeps it: in microseconds, the rest cut off towards the start
of the year 2000. -/
def storedInstant (i : Time.Instant) : Time.Instant :=
  let nanos := i.seconds * 1000000000 + i.nanos - epochNanos
  (⟨0, 0⟩ : Time.Instant).addNanos (Int.tdiv nanos 1000 * 1000 + epochNanos)

def Cell.ofInstant (i : Time.Instant) : Cell := .time (storedInstant i)

def Cell.ofOption {α : Type} (f : α → Cell) : Option α → Cell
  | some a => f a
  | none => .null

/-- What the cells of a column hold. -/
inductive ColumnType where
  | uuid
  | text
  | bool
  | int
  | time
  | json
  deriving Repr, DecidableEq

/-- The cell for a value in a column.  Null is an empty cell, unless it is the only member
`$json` of an object; a value that the column cannot hold is an empty cell as well. -/
def ColumnType.cell : ColumnType → Json → Cell
  | _, .null => .null
  | .uuid, .str s => Cell.ofOption .uuid (Uuid.parse s).toOption
  | .text, .str s => .text s
  | .bool, .bool b => .bool b
  | .int, .num (.whole i) => .int i
  | .time, .str s => Cell.ofOption .ofInstant (Time.Instant.parse s).toOption
  | .json, .obj [("$json", .null)] => .json .null
  | .json, v => .json v
  | _, _ => .null

def Cell.toJson : Cell → Json
  | .null => .null
  | .uuid u => u.toJson
  | .text s => .str s
  | .bool b => .bool b
  | .int i => .num (.whole i)
  | .time i => i.toJson
  | .json .null => .ofPairs [("$json", .null)]
  | .json v => v

structure Table where
  name : String
  columns : List (String × ColumnType)

def Table.columnNames (t : Table) : List String := t.columns.map Prod.fst

def workflows : Table :=
  ⟨"workflows",
    [("id", .uuid), ("name", .text), ("slug", .text), ("definition", .json), ("enabled", .bool),
      ("trigger_type", .text), ("last_run_at", .time), ("created_at", .time)]⟩

def executions : Table :=
  ⟨"workflow_executions",
    [("id", .uuid), ("workflow_id", .uuid), ("status", .text), ("triggered_by", .text),
      ("user_id", .text), ("agent_id", .text), ("trigger_data", .json), ("result", .json),
      ("error", .text), ("started_at", .time), ("finished_at", .time)]⟩

def primitives : Table :=
  ⟨"primitives",
    [("id", .uuid), ("name", .text), ("category", .text), ("input_schema", .json),
      ("timeout_ms", .int), ("enabled", .bool), ("version", .text), ("created_at", .time)]⟩

def audits : Table :=
  ⟨"primitive_executions",
    [("id", .uuid), ("primitive_id", .uuid), ("execution_id", .uuid), ("workflow_id", .uuid),
      ("node_id", .text), ("input", .json), ("output", .json), ("success", .bool),
      ("error", .text), ("started_at", .time), ("finished_at", .time), ("duration_ms", .int)]⟩

/-- What a column must be: the value of a parameter, or one that stands in the text. -/
inductive Test where
  | equals (column : String) (value : Cell)
  | isTrue (column : String)
  | isWord (column word : String)

inductive Statement where
  | select (table : Table) (tests : List Test) (order : Option String)
  | insert (table : Table) (values : List (String × Cell))
  | update (table : Table) (changes : List (String × Cell)) (tests : List Test)
  | script (text : String)

/-- The value that a test compares with, if it is a parameter. -/
def Test.param? : Test → Option Cell
  | .equals _ value => some value
  | .isTrue _ => none
  | .isWord _ _ => none

namespace Statement

def params : Statement → List Cell
  | .select _ tests _ => tests.filterMap Test.param?
  | .insert _ values => values.map Prod.snd
  | .update _ changes tests => changes.map Prod.snd ++ tests.filterMap Test.param?
  | .script _ => []

def paramText (n : Nat) : String := "$" ++ Decimal.intText n

def testTexts : Nat → List Test → List String
  | _, [] => []
  | n, .equals column _ :: rest => (column ++ " = " ++ paramText n) :: testTexts (n + 1) rest
  | n, .isTrue column :: rest => (column ++ " = TRUE") :: testTexts n rest
  | n, .isWord column word :: rest => (column ++ " = '" ++ word ++ "'") :: testTexts n rest

def changeTexts : Nat → List (String × Cell) → List String
  | _, [] => []
  | n, (column, _) :: rest => (column ++ " = " ++ paramText n) :: changeTexts (n + 1) rest

def text : Statement → String
  | .select table tests order =>
    "SELECT " ++ ", ".intercalate table.columnNames ++ " FROM " ++ table.name ++ " WHERE " ++
      " AND ".intercalate (testTexts 1 tests) ++
      (match order with
        | some column => " ORDER BY " ++ column ++ " ASC"
        | none => "")
  | .insert table values =>
    "INSERT INTO " ++ table.name ++ " (" ++ ", ".intercalate (values.map Prod.fst) ++
      ") VALUES (" ++
      ", ".intercalate ((List.range values.length).map fun i => paramText (i + 1)) ++
      ") RETURNING " ++ ", ".intercalate table.columnNames
  | .update table changes tests =>
    "UPDATE " ++ table.name ++ " SET " ++ ", ".intercalate (changeTexts 1 changes) ++ " WHERE " ++
      " AND ".intercalate (testTexts (changes.length + 1) tests)
  | .script text => text

end Statement

/-- A row of an answer: cells under the names of columns.  A column that is missing is
empty. -/
abbrev ResultRow := List (String × Cell)

/-- What a database answers: rows, and how many rows a statement reached. -/
structure Reply where
  rows : List ResultRow
  affected : Nat

def Table.row (t : Table) (v : Json) : ResultRow :=
  t.columns.map fun (column, type) => (column, type.cell ((v.field? column).getD .null))

def Statement.table? : Statement → Option Table
  | .select table _ _ => some table
  | .insert table _ => some table
  | _ => none

def Reply.ofRows (s : Statement) (rows : List Json) (affected : Option Nat) : Reply :=
  ⟨match s.table? with
    | some table => rows.map table.row
    | none => [], affected.getD rows.length⟩

namespace ResultRow

def cell (row : ResultRow) (column : String) : Cell := (row.lookup column).getD .null

/-- The content of a column that must not be empty.  A cell of another type counts as
empty. -/
def required {α : Type} (row : ResultRow) (column : String) (content : Cell → Option α) :
    Except DatabaseError α :=
  match content (row.cell column) with
  | some a => .ok a
  | none => .error (.unexpectedNull column)

def optional {α : Type} (row : ResultRow) (column : String) (content : Cell → Option α) :
    Except DatabaseError (Option α) :=
  .ok (content (row.cell column))

end ResultRow

namespace Cell

def uuid? : Cell → Option Uuid
  | .uuid u => some u
  | _ => none

def text? : Cell → Option String
  | .text s => some s
  | _ => none

def bool? : Cell → Option Bool
  | .bool b => some b
  | _ => none

def int? : Cell → Option Int
  | .int i => some i
  | _ => none

def time? : Cell → Option Time.Instant
  | .time i => some i
  | _ => none

def json? : Cell → Option Json
  | .json v => some v
  | _ => none

end Cell

end Workflow.Sql
