import Workflow.Store.Statement

/-!
# The tables of a database

The columns of the tables of a store with their constraints, the script that creates the tables
where they do not exist yet, and the settings of the connections to a database.
-/

namespace Workflow.Sql

def migrationVersion : String := "20260101000000"

/-- What the cells of a column must meet, or what stands there if nothing is put there. -/
inductive Constraint where
  | primaryKey
  | notNull
  | unique
  | among (words : List String)
  | refers (table column onDelete : String)
  | initially (value : String)

def Constraint.text (column : String) : Constraint → String
  | .primaryKey => "PRIMARY KEY"
  | .notNull => "NOT NULL"
  | .unique => "UNIQUE"
  | .among words =>
    "CHECK (" ++ column ++ " IN (" ++ ", ".intercalate (words.map fun w => "'" ++ w ++ "'") ++ "))"
  | .refers table other action =>
    "REFERENCES " ++ table ++ " (" ++ other ++ ") ON DELETE " ++ action
  | .initially value => "DEFAULT " ++ value

def ColumnType.name : ColumnType → String
  | .uuid => "UUID"
  | .text => "TEXT"
  | .bool => "BOOLEAN"
  | .int => "BIGINT"
  | .time => "TIMESTAMPTZ"
  | .json => "JSONB"

/-- A table with the constraints of its columns and what it is indexed by. -/
structure Schema where
  table : Table
  constraints : List (String × List Constraint)
  indexes : List String

namespace Schema

def padded (width : Nat) (s : String) : String :=
  String.ofList (s.toList ++ List.replicate (width - s.length) ' ')

def columnText (s : Schema) (column : String) (type : ColumnType) : String :=
  "    " ++ padded 13 column ++
    match (s.constraints.lookup column).getD [] with
    | [] => type.name
    | [.primaryKey] => type.name ++ " " ++ Constraint.primaryKey.text column
    | constraints =>
      padded 12 type.name ++ " ".intercalate (constraints.map (Constraint.text column))

def text (s : Schema) : String :=
  "CREATE TABLE IF NOT EXISTS " ++ s.table.name ++ " (\n" ++
    ",\n".intercalate (s.table.columns.map fun (column, type) => s.columnText column type) ++
    "\n);\n" ++
    String.join (s.indexes.map fun index => "\nCREATE INDEX IF NOT EXISTS " ++ index ++ ";\n")

def workflows : Schema where
  table := Sql.workflows
  constraints :=
    [("id", [.primaryKey]), ("name", [.notNull]), ("slug", [.notNull, .unique]),
      ("definition", [.notNull]), ("enabled", [.notNull, .initially "TRUE"]),
      ("trigger_type", [.notNull, .initially "'manual'"]),
      ("created_at", [.notNull, .initially "NOW()"])]
  indexes := ["workflows_trigger_idx ON workflows (trigger_type) WHERE enabled"]

def executions : Schema where
  table := Sql.executions
  constraints :=
    [("id", [.primaryKey]), ("workflow_id", [.notNull, .refers "workflows" "id" "CASCADE"]),
      ("status", [.notNull, .among (ExecutionStatus.all.map ExecutionStatus.name)]),
      ("triggered_by", [.notNull]),
      ("trigger_data", [.notNull, .initially "'\x7b\x7d'::jsonb"]), ("started_at", [.notNull])]
  indexes :=
    ["workflow_executions_workflow_idx ON workflow_executions (workflow_id, started_at DESC)"]

def primitives : Schema where
  table := Sql.primitives
  constraints :=
    [("id", [.primaryKey]), ("name", [.notNull, .unique]), ("category", [.notNull]),
      ("input_schema", [.notNull, .initially "'\x7b\x7d'::jsonb"]),
      ("timeout_ms", [.notNull, .initially "30000"]), ("enabled", [.notNull, .initially "TRUE"]),
      ("version", [.notNull, .initially "'1'"]), ("created_at", [.notNull, .initially "NOW()"])]
  indexes := []

def audits : Schema where
  table := Sql.audits
  constraints :=
    [("id", [.primaryKey]), ("primitive_id", [.notNull, .refers "primitives" "id" "CASCADE"]),
      ("execution_id", [.refers "workflow_executions" "id" "SET NULL"]), ("input", [.notNull]),
      ("success", [.notNull]), ("started_at", [.notNull]), ("finished_at", [.notNull]),
      ("duration_ms", [.notNull])]
  indexes := ["primitive_executions_execution_idx ON primitive_executions (execution_id)"]

def all : List Schema := [workflows, executions, primitives, audits]

end Schema

def migration : String := "\n".intercalate (Schema.all.map Schema.text)

def migrated (reply : Except String Reply) : Except StoreError Unit :=
  match reply with
  | .ok _ => .ok ()
  | .error message => .error (.migration migrationVersion (.refused message))

/-- How many connections to a database are kept, and for how many milliseconds one is
waited for. -/
structure PoolConfig where
  address : String
  maxConnections : Nat
  acquireTimeout : Nat

def PoolConfig.standard (address : String) : PoolConfig := ⟨address, 10, 5000⟩

def fewConnections : Nat := 2

end Workflow.Sql
