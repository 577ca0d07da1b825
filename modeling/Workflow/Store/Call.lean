import Workflow.Store.Row

/-!
# What a store is asked

The questions and orders that a store answers, each with the type of its answer.
-/

namespace Workflow

/-- A question or an order to a store, with the type of the answer. -/
inductive StoreCall : Type → Type where
  | findWorkflow (id : Uuid) : StoreCall (Option WorkflowRow)
  | findWorkflowBySlug (slug : String) : StoreCall (Option WorkflowRow)
  | listEnabled (triggerType : String) : StoreCall (List WorkflowRow)
  | touchLastRun (id : Uuid) (instant : Time.Instant) : StoreCall Unit
  | createExecution (new : NewExecution) : StoreCall ExecutionRow
  | finishExecution (id : Uuid) (finish : Finish) : StoreCall Bool
  | getExecution (id : Uuid) : StoreCall (Option ExecutionRow)
  | findPrimitive (id : Uuid) : StoreCall (Option PrimitiveRow)
  | findPrimitiveByName (name : String) : StoreCall (Option PrimitiveRow)
  | insertAudit (record : NewAudit) : StoreCall Unit

def NewExecution.toRow (new : NewExecution) (id : Uuid) (now : Time.Instant) : ExecutionRow :=
  { id
    workflowId := new.workflowId
    status := ExecutionStatus.running.name
    triggeredBy := new.triggeredBy
    userId := new.userId
    agentId := new.agentId
    triggerData := new.triggerData
    result := none
    error := none
    startedAt := now
    finishedAt := none }

def ExecutionRow.finish (row : ExecutionRow) (f : Finish) (now : Time.Instant) : ExecutionRow :=
  { row with status := f.status.name, result := f.result, error := f.error, finishedAt := some now }

end Workflow
