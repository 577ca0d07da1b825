import Workflow.Store.Call
import Workflow.Store.Statement

/-!
# A store in a database

What a store is asked becomes a statement, and the reply of the database to it becomes
the answer.
-/

namespace Workflow.Sql

/-! ### Rows -/

def readWorkflow (row : ResultRow) : Except DatabaseError WorkflowRow := do
  let id ← row.required "id" Cell.uuid?
  let name ← row.required "name" Cell.text?
  let slug ← row.required "slug" Cell.text?
  let definition ← row.required "definition" Cell.json?
  let enabled ← row.required "enabled" Cell.bool?
  let triggerType ← row.required "trigger_type" Cell.text?
  let lastRunAt ← row.optional "last_run_at" Cell.time?
  let createdAt ← row.required "created_at" Cell.time?
  return { id, name, slug, definition, enabled, triggerType, lastRunAt, createdAt }

def readExecution (row : ResultRow) : Except DatabaseError ExecutionRow := do
  let id ← row.required "id" Cell.uuid?
  let workflowId ← row.required "workflow_id" Cell.uuid?
  let status ← row.required "status" Cell.text?
  let triggeredBy ← row.required "triggered_by" Cell.text?
  let userId ← row.optional "user_id" Cell.text?
  let agentId ← row.optional "agent_id" Cell.text?
  let triggerData ← row.required "trigger_data" Cell.json?
  let result ← row.optional "result" Cell.json?
  let error ← row.optional "error" Cell.text?
  let startedAt ← row.required "started_at" Cell.time?
  let finishedAt ← row.optional "finished_at" Cell.time?
  return { id, workflowId, status, triggeredBy, userId, agentId, triggerData, result, error,
           startedAt, finishedAt }

def readPrimitive (row : ResultRow) : Except DatabaseError PrimitiveRow := do
  let id ← row.required "id" Cell.uuid?
  let name ← row.required "name" Cell.text?
  let category ← row.required "category" Cell.text?
  let inputSchema ← row.required "input_schema" Cell.json?
  let timeoutMs ← row.required "timeout_ms" Cell.int?
  let enabled ← row.required "enabled" Cell.bool?
  let version ← row.required "version" Cell.text?
  let createdAt ← row.required "created_at" Cell.time?
  return { id, name, category, inputSchema, timeoutMs, enabled, version, createdAt }

def readAudit (row : ResultRow) : Except DatabaseError AuditRow := do
  let id ← row.required "id" Cell.uuid?
  let primitiveId ← row.required "primitive_id" Cell.uuid?
  let executionId ← row.optional "execution_id" Cell.uuid?
  let workflowId ← row.optional "workflow_id" Cell.uuid?
  let nodeId ← row.optional "node_id" Cell.text?
  let input ← row.required "input" Cell.json?
  let output ← row.optional "output" Cell.json?
  let success ← row.required "success" Cell.bool?
  let error ← row.optional "error" Cell.text?
  let startedAt ← row.required "started_at" Cell.time?
  let finishedAt ← row.required "finished_at" Cell.time?
  let durationMs ← row.required "duration_ms" Cell.int?
  return { id, primitiveId, executionId, workflowId, nodeId, input, output, success, error,
           startedAt, finishedAt, durationMs }

/-! ### Statements -/

def insertWorkflow (row : WorkflowRow) : Statement :=
  .insert workflows
    [("id", .uuid row.id), ("name", .text row.name), ("slug", .text row.slug),
      ("definition", .json row.definition), ("enabled", .bool row.enabled),
      ("trigger_type", .text row.triggerType), ("last_run_at", .ofOption .ofInstant row.lastRunAt),
      ("created_at", .ofInstant row.createdAt)]

def insertExecution (id : Uuid) (now : Time.Instant) (new : NewExecution) : Statement :=
  .insert executions
    [("id", .uuid id), ("workflow_id", .uuid new.workflowId),
      ("status", .text ExecutionStatus.running.name), ("triggered_by", .text new.triggeredBy),
      ("user_id", .ofOption .text new.userId), ("agent_id", .ofOption .text new.agentId),
      ("trigger_data", .json new.triggerData), ("started_at", .ofInstant now)]

def finishExecution (id : Uuid) (now : Time.Instant) (f : Finish) : Statement :=
  .update executions
    [("status", .text f.status.name), ("result", .ofOption .json f.result),
      ("error", .ofOption .text f.error), ("finished_at", .ofInstant now)]
    [.equals "id" (.uuid id), .isWord "status" ExecutionStatus.running.name]

def insertAudit (id : Uuid) (r : NewAudit) : Statement :=
  .insert audits
    [("id", .uuid id), ("primitive_id", .uuid r.primitiveId),
      ("execution_id", .ofOption .uuid r.executionId),
      ("workflow_id", .ofOption .uuid r.workflowId),
      ("node_id", .ofOption .text r.nodeId), ("input", .json r.input),
      ("output", .ofOption .json r.output), ("success", .bool r.success),
      ("error", .ofOption .text r.error), ("started_at", .ofInstant r.startedAt),
      ("finished_at", .ofInstant r.finishedAt), ("duration_ms", .int r.durationMs)]

/-- The statement for what a store is asked, given an identifier for a row that is created
and the instant at which it is asked. -/
def statement (fresh : Uuid) (now : Time.Instant) {β : Type} : StoreCall β → Statement
  | .findWorkflow id => .select workflows [.equals "id" (.uuid id)] none
  | .findWorkflowBySlug slug => .select workflows [.equals "slug" (.text slug)] none
  | .listEnabled triggerType =>
    .select workflows [.isTrue "enabled", .equals "trigger_type" (.text triggerType)]
      (some "created_at")
  | .touchLastRun id instant =>
    .update workflows [("last_run_at", .ofInstant instant)] [.equals "id" (.uuid id)]
  | .createExecution new => insertExecution fresh now new
  | .finishExecution id f => finishExecution id now f
  | .getExecution id => .select executions [.equals "id" (.uuid id)] none
  | .findPrimitive id => .select primitives [.equals "id" (.uuid id)] none
  | .findPrimitiveByName name => .select primitives [.equals "name" (.text name)] none
  | .insertAudit record => insertAudit fresh record

/-! ### Replies -/

/-- The first row of a reply, if there is one. -/
def firstRow {α : Type} (read : ResultRow → Except DatabaseError α) (reply : Reply) :
    Except StoreError (Option α) :=
  match reply.rows with
  | [] => .ok none
  | row :: _ => ((read row).map some).mapError .database

def onlyRow {α : Type} (read : ResultRow → Except DatabaseError α) (reply : Reply) :
    Except StoreError α :=
  match reply.rows with
  | [] => .error (.database .noRow)
  | row :: _ => (read row).mapError .database

/-- The answer to what a store is asked, from the reply to its statement. -/
def readReply {β : Type} : StoreCall β → Reply → Except StoreError β
  | .findWorkflow _, reply => firstRow readWorkflow reply
  | .findWorkflowBySlug _, reply => firstRow readWorkflow reply
  | .listEnabled _, reply => (reply.rows.mapM readWorkflow).mapError .database
  | .touchLastRun _ _, reply => if reply.affected = 0 then .error .notFound else .ok ()
  | .createExecution _, reply => onlyRow readExecution reply
  | .finishExecution _ _, reply => .ok (reply.affected = 1)
  | .getExecution _, reply => firstRow readExecution reply
  | .findPrimitive _, reply => firstRow readPrimitive reply
  | .findPrimitiveByName _, reply => firstRow readPrimitive reply
  | .insertAudit _, reply => (onlyRow readAudit reply).map fun _ => ()

def accepted (reply : Except String Reply) : Except StoreError Reply :=
  reply.mapError fun message => .database (.refused message)

def answer {D β : Type} (database : Statement → D → Except String Reply × D) (fresh : Uuid)
    (now : Time.Instant) (call : StoreCall β) (d : D) : Except StoreError β × D :=
  let (reply, d) := database (statement fresh now call) d
  (accepted reply >>= readReply call, d)

end Workflow.Sql
