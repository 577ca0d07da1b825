import Workflow.Context
import Workflow.Store.Error

/-!
# Rows

What a store keeps: workflows, their executions, primitives, and a log with a row for
each invocation of a primitive.
-/

namespace Workflow

inductive ExecutionStatus where
  | running
  | completed
  | failed
  | cancelled
  deriving Repr, DecidableEq

namespace ExecutionStatus

def all : List ExecutionStatus := [.running, .completed, .failed, .cancelled]

def name : ExecutionStatus → String
  | .running => "RUNNING"
  | .completed => "COMPLETED"
  | .failed => "FAILED"
  | .cancelled => "CANCELLED"

def ofName? (s : String) : Option ExecutionStatus := all.find? fun status => status.name = s

def parse (s : String) : Except StoreError ExecutionStatus :=
  match ofName? s with
  | some status => .ok status
  | none => .error (.invalidStatus s)

/-- An execution that is not running any more stays as it is. -/
def isTerminal : ExecutionStatus → Bool
  | .running => false
  | _ => true

theorem ofName?_name (status : ExecutionStatus) : ofName? status.name = some status := by
  cases status <;> decide

end ExecutionStatus

/-- A workflow as it is stored, with a document that holds its graph. -/
structure WorkflowRow where
  id : Uuid
  name : String
  slug : String
  definition : Json
  enabled : Bool
  triggerType : String
  lastRunAt : Option Time.Instant
  createdAt : Time.Instant

/-- An execution as it is stored. -/
structure ExecutionRow where
  id : Uuid
  workflowId : Uuid
  status : String
  triggeredBy : String
  userId : Option String
  agentId : Option String
  triggerData : Json
  result : Option Json
  error : Option String
  startedAt : Time.Instant
  finishedAt : Option Time.Instant

/-- What is given when an execution is created. -/
structure NewExecution where
  workflowId : Uuid
  triggeredBy : String
  userId : Option String
  agentId : Option String
  triggerData : Json

structure Finish where
  status : ExecutionStatus
  result : Option Json
  error : Option String

/-- A primitive as it is stored. -/
structure PrimitiveRow where
  id : Uuid
  name : String
  category : String
  inputSchema : Json
  timeoutMs : Int
  enabled : Bool
  version : String
  createdAt : Time.Instant

/-- What is logged of an invocation of a primitive. -/
structure NewAudit where
  primitiveId : Uuid
  executionId : Option Uuid
  workflowId : Option Uuid
  nodeId : Option String
  input : Json
  output : Option Json
  success : Bool
  error : Option String
  startedAt : Time.Instant
  finishedAt : Time.Instant
  durationMs : Int

/-- An invocation of a primitive as it is stored. -/
structure AuditRow extends NewAudit where
  id : Uuid

def Time.Instant.toJson (i : Time.Instant) : Json := .str i.text

def Uuid.toJson (u : Uuid) : Json := .str u.text

def WorkflowRow.toJson (row : WorkflowRow) : Json :=
  .ofPairs
    [("id", row.id.toJson), ("name", .str row.name), ("slug", .str row.slug),
      ("definition", row.definition), ("enabled", .bool row.enabled),
      ("trigger_type", .str row.triggerType),
      ("last_run_at", .ofOption (row.lastRunAt.map Time.Instant.toJson)),
      ("created_at", row.createdAt.toJson)]

def ExecutionRow.toJson (row : ExecutionRow) : Json :=
  .ofPairs
    [("id", row.id.toJson), ("workflow_id", row.workflowId.toJson), ("status", .str row.status),
      ("triggered_by", .str row.triggeredBy), ("user_id", .ofText? row.userId),
      ("agent_id", .ofText? row.agentId), ("trigger_data", row.triggerData),
      ("result", .ofOption row.result), ("error", .ofText? row.error),
      ("started_at", row.startedAt.toJson),
      ("finished_at", .ofOption (row.finishedAt.map Time.Instant.toJson))]

def ExecutionRow.state (row : ExecutionRow) : Except StoreError ExecutionStatus :=
  ExecutionStatus.parse row.status

def PrimitiveRow.toJson (row : PrimitiveRow) : Json :=
  .ofPairs
    [("id", row.id.toJson), ("name", .str row.name), ("category", .str row.category),
      ("input_schema", row.inputSchema), ("timeout_ms", .num (.whole row.timeoutMs)),
      ("enabled", .bool row.enabled), ("version", .str row.version),
      ("created_at", row.createdAt.toJson)]

def AuditRow.toJson (row : AuditRow) : Json :=
  .ofPairs
    [("id", row.id.toJson), ("primitive_id", row.primitiveId.toJson),
      ("execution_id", .ofOption (row.executionId.map Uuid.toJson)),
      ("workflow_id", .ofOption (row.workflowId.map Uuid.toJson)),
      ("node_id", .ofText? row.nodeId), ("input", row.input), ("output", .ofOption row.output),
      ("success", .bool row.success), ("error", .ofText? row.error),
      ("started_at", row.startedAt.toJson), ("finished_at", row.finishedAt.toJson),
      ("duration_ms", .num (.whole row.durationMs))]

open Json

def WorkflowRow.decoder : Decoder WorkflowRow :=
  Record.decoder "struct WorkflowRow" <|
    WorkflowRow.mk <$> Record.required "id" Decoder.uuid
      <*> Record.required "name" Decoder.text
      <*> Record.required "slug" Decoder.text
      <*> Record.required "definition" Decoder.json
      <*> Record.required "enabled" Decoder.bool
      <*> Record.required "trigger_type" Decoder.text
      <*> Record.nullable "last_run_at" Decoder.instant
      <*> Record.required "created_at" Decoder.instant

def PrimitiveRow.decoder : Decoder PrimitiveRow :=
  Record.decoder "struct PrimitiveRow" <|
    PrimitiveRow.mk <$> Record.required "id" Decoder.uuid
      <*> Record.required "name" Decoder.text
      <*> Record.required "category" Decoder.text
      <*> Record.required "input_schema" Decoder.json
      <*> Record.required "timeout_ms" Decoder.int64
      <*> Record.required "enabled" Decoder.bool
      <*> Record.required "version" Decoder.text
      <*> Record.required "created_at" Decoder.instant

end Workflow
