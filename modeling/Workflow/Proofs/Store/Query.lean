import Mathlib.Data.Prod.Lex
import Workflow.Store.Database
import Workflow.Store.Migration

/-!
# What statements mean

A statement reaches a database as a text with numbered parameters.  Here its meaning is read off
that text: which table it is about, which columns it tests, changes or gives back, and which
parameter stands where.  A database obeys if it carries out each statement as its text and its
parameters say, on tables with the constraints of the migration.
-/

namespace Workflow

/-- How long after the start of the year 1970 an instant is. -/
def Time.Instant.inNanos (i : Time.Instant) : Int := i.seconds * 1000000000 + i.nanos

namespace Sql

/-! ### Texts -/

/-- Marks are words of their own. -/
def isMark (c : Char) : Bool := c = '(' || c = ')' || c = ','

/-- The words of a text, with its marks as words of their own, given the word that is being
collected in reverse. -/
def tokensFrom (run : List Char) : List Char → List (List Char)
  | [] => if run.isEmpty then [] else [run.reverse]
  | c :: cs =>
    if Text.isBlank c then
      if run.isEmpty then tokensFrom [] cs else run.reverse :: tokensFrom [] cs
    else if isMark c then
      if run.isEmpty then [c] :: tokensFrom [] cs else run.reverse :: [c] :: tokensFrom [] cs
    else tokensFrom (c :: run) cs

def tokens (text : String) : List String := (tokensFrom [] text.toList).map String.ofList

/-- What a column is set to or compared with: a parameter, or a value in the text. -/
inductive Operand where
  | param (n : Nat)
  | truth
  | word (s : String)
  deriving Repr, DecidableEq

def Operand.read (token : String) : Option Operand :=
  match token.toList with
  | '$' :: digits =>
    if digits.isEmpty || !digits.all Char.isDigit then none
    else some (.param (Nat.ofDigitChars 10 digits 0))
  | '\'' :: rest =>
    match rest.reverse with
    | '\'' :: inner => some (.word (String.ofList inner.reverse))
    | _ => none
  | _ => if token = "TRUE" then some .truth else none

/-- A statement as its text has it. -/
inductive Query where
  | select (columns : List String) (table : String) (tests : List (String × Operand))
      (order : Option String)
  | insert (table : String) (values : List (String × Operand)) (columns : List String)
  | update (table : String) (changes tests : List (String × Operand))
  deriving Repr, DecidableEq

/-- Names with commas between them, and what follows. -/
def readNames : List String → List String × List String
  | name :: "," :: rest => (name :: (readNames rest).1, (readNames rest).2)
  | name :: rest => ([name], rest)
  | [] => ([], [])

/-- Columns that are made equal to operands, with a word between them, and what follows. -/
def readPairs (joint : String) : List String → Option (List (String × Operand) × List String)
  | column :: "=" :: token :: rest => do
    let operand ← Operand.read token
    match rest with
    | [] => some ([(column, operand)], [])
    | next :: more =>
      if next = joint then do
        let (pairs, rest) ← readPairs joint more
        some ((column, operand) :: pairs, rest)
      else some ([(column, operand)], next :: more)
  | _ => none

namespace Query

/-- The statement that the tokens of a text make up. -/
def ofTokens : List String → Option Query
  | "SELECT" :: rest =>
    match readNames rest with
    | (columns, "FROM" :: table :: "WHERE" :: rest) =>
      match readPairs "AND" rest with
      | some (tests, []) => some (.select columns table tests none)
      | some (tests, ["ORDER", "BY", column, "ASC"]) =>
        some (.select columns table tests (some column))
      | _ => none
    | _ => none
  | "INSERT" :: "INTO" :: table :: "(" :: rest =>
    match readNames rest with
    | (columns, ")" :: "VALUES" :: "(" :: rest) =>
      match readNames rest with
      | (values, ")" :: "RETURNING" :: rest) =>
        match values.mapM Operand.read, readNames rest with
        | some operands, (returned, []) =>
          if operands.length = columns.length then
            some (.insert table (columns.zip operands) returned)
          else none
        | _, _ => none
      | _ => none
    | _ => none
  | "UPDATE" :: table :: "SET" :: rest =>
    match readPairs "," rest with
    | some (changes, "WHERE" :: rest) =>
      match readPairs "AND" rest with
      | some (tests, []) => some (.update table changes tests)
      | _ => none
    | _ => none
  | _ => none

def read (text : String) : Option Query := ofTokens (tokens text)

end Query

/-! ### Cells -/

namespace Cell

def isNull : Cell → Bool
  | .null => true
  | _ => false

/-- Whether two cells hold the same.  An empty cell is the same as none. -/
def same : Cell → Cell → Bool
  | .uuid u, .uuid u' => u = u'
  | .text s, .text s' => s = s'
  | .bool b, .bool b' => b = b'
  | .int i, .int i' => i = i'
  | .time i, .time i' => i = i'
  | .json v, .json v' => v == v'
  | _, _ => false

/-- Where a cell stands in an ascending order: an empty cell stands last.  The order of texts is
not said. -/
def rank : Cell → Nat ×ₗ Int
  | .int i => toLex (0, i)
  | .time i => toLex (0, i.inNanos)
  | .null => toLex (2, 0)
  | _ => toLex (1, 0)

/-- Whether a cell need not come after another one in an ascending order. -/
def atMost (c c' : Cell) : Bool := c.rank ≤ c'.rank

/-- Whether a column of a type can hold a cell. -/
def fits (type : ColumnType) : Cell → Bool
  | .null => true
  | .uuid _ => type = .uuid
  | .text _ => type = .text
  | .bool _ => type = .bool
  | .int _ => type = .int
  | .time _ => type = .time
  | .json _ => type = .json

end Cell

def Operand.cell (params : List Cell) : Operand → Cell
  | .param n => (params[n - 1]?).getD .null
  | .truth => .bool true
  | .word s => .text s

/-- Columns with the cells that their operands stand for. -/
def bound (params : List Cell) (pairs : List (String × Operand)) : List (String × Cell) :=
  pairs.map fun (column, operand) => (column, operand.cell params)

/-! ### Tables -/

/-- The rows of the tables of a database, by their names. -/
abbrev Tables := String → List ResultRow

/-- Whether the rows of a table would meet a constraint of a column. -/
def Constraint.Holds (tables : Tables) (rows : List ResultRow) (column : String) :
    Constraint → Prop
  | .primaryKey =>
    (∀ row ∈ rows, (row.cell column).isNull = false) ∧
      rows.Pairwise fun a b => (a.cell column).same (b.cell column) = false
  | .notNull => ∀ row ∈ rows, (row.cell column).isNull = false
  | .unique => rows.Pairwise fun a b => (a.cell column).same (b.cell column) = false
  | .among words =>
    ∀ row ∈ rows, (row.cell column).isNull = true ∨
      ∃ word ∈ words, (row.cell column).same (.text word) = true
  | .refers table other _ =>
    ∀ row ∈ rows, (row.cell column).isNull = true ∨
      ∃ r ∈ tables table, (row.cell column).same (r.cell other) = true
  | .initially _ => True

namespace Schema

/-- Whether a table can hold rows: their cells are of the types of their columns and meet the
constraints of these. -/
structure Accepts (s : Schema) (tables : Tables) (rows : List ResultRow) : Prop where
  types : ∀ column ∈ s.table.columns, ∀ row ∈ rows, (row.cell column.1).fits column.2 = true
  constraints : ∀ entry ∈ s.constraints, ∀ c ∈ entry.2, c.Holds tables rows entry.1

def ofName? (table : String) : Option Schema := all.find? fun s => s.table.name = table

def isInitial : Constraint → Bool
  | .initially _ => true
  | _ => false

/-- The row that is put into a table.  A column without a value is empty; what stands there for a
column with an initial content is not said. -/
def newRow? (s : Schema) (values : List (String × Cell)) : Option ResultRow :=
  s.table.columns.mapM fun (column, _) =>
    match values.lookup column with
    | some cell => some (column, cell)
    | none =>
      if ((s.constraints.lookup column).getD []).any isInitial then none
      else some (column, .null)

end Schema

namespace ResultRow

def project (columns : List String) (row : ResultRow) : ResultRow :=
  columns.map fun column => (column, row.cell column)

def change (values : List (String × Cell)) (row : ResultRow) : ResultRow :=
  row.map fun (column, cell) => (column, (values.lookup column).getD cell)

/-- Whether a row passes all tests. -/
def passes (tests : List (String × Cell)) (row : ResultRow) : Bool :=
  tests.all fun (column, cell) => (row.cell column).same cell

end ResultRow

/-! ### Statements -/

/-- What becomes of a change of a table: it is made, or refused because the table cannot hold the
new rows. -/
inductive Written (s : Schema) (tables : Tables) (rows : List ResultRow) (reply : Reply) :
    Except String Reply → Tables → Prop
  | made (h : s.Accepts tables rows) :
    Written s tables rows reply (.ok reply) (Function.update tables s.table.name rows)
  | refused (h : ¬ s.Accepts tables rows) (message : String) :
    Written s tables rows reply (.error message) tables

/-- What a statement may be answered, and how it leaves the tables.  Rows may come in any order,
unless the statement asks for one. -/
inductive Carried (params : List Cell) (tables : Tables) :
    Query → Except String Reply → Tables → Prop
  | select {columns : List String} {table : String} {tests : List (String × Operand)}
      {order : Option String} {rows : List ResultRow}
      (hrows : rows.Perm ((tables table).filter (·.passes (bound params tests))))
      (horder : ∀ column ∈ order,
        rows.Pairwise fun a b => (a.cell column).atMost (b.cell column) = true) :
    Carried params tables (.select columns table tests order)
      (.ok ⟨rows.map (·.project columns), rows.length⟩) tables
  | insert {table : String} {s : Schema} {values : List (String × Operand)}
      {columns : List String} {row : ResultRow} {reply : Except String Reply} {tables' : Tables}
      (hs : Schema.ofName? table = some s) (hrow : s.newRow? (bound params values) = some row)
      (h : Written s tables (tables table ++ [row]) ⟨[row.project columns], 1⟩ reply tables') :
    Carried params tables (.insert table values columns) reply tables'
  | update {table : String} {s : Schema} {changes tests : List (String × Operand)}
      {reply : Except String Reply} {tables' : Tables} (hs : Schema.ofName? table = some s)
      (h : Written s tables
        ((tables table).map fun row =>
          if row.passes (bound params tests) then row.change (bound params changes) else row)
        ⟨[], (tables table).countP (·.passes (bound params tests))⟩ reply tables') :
    Carried params tables (.update table changes tests) reply tables'

/-- Whether a statement is sent: for what a store is asked, or to put a workflow there. -/
def Sent (s : Statement) : Prop :=
  (∃ (β : Type) (fresh : Uuid) (now : Time.Instant) (call : StoreCall β),
    statement fresh now call = s) ∨ ∃ row : WorkflowRow, insertWorkflow row = s

/-- Whether a database carries out each statement that is sent as its text and its parameters
say. -/
def Obeys {D : Type} (database : Statement → D → Except String Reply × D) (tables : D → Tables) :
    Prop :=
  ∀ s q d, Sent s → Query.read s.text = some q →
    Carried s.params (tables d) q (database s d).1 (tables (database s d).2)

end Sql

end Workflow
