import Workflow.Store.Memory

/-!
# A store that fails

A store in memory in which things go wrong: calls fail, executions are finished by
somebody else, or rows come back changed or not at all.
-/

namespace Workflow

def StoreCall.name {β : Type} : StoreCall β → String
  | .findWorkflow _ => "find_workflow"
  | .findWorkflowBySlug _ => "find_workflow_by_slug"
  | .listEnabled _ => "list_enabled_by_trigger"
  | .touchLastRun _ _ => "touch_last_run"
  | .createExecution _ => "create_execution"
  | .finishExecution _ _ => "finish_execution"
  | .getExecution _ => "get_execution"
  | .findPrimitive _ => "find_primitive"
  | .findPrimitiveByName _ => "find_primitive_by_name"
  | .insertAudit _ => "insert_primitive_execution"

/-- What goes wrong in a store: the calls that fail, by their names; the state in which an
execution that was just created is finished by somebody else; the text that stands for
the state of every execution that is looked at; and whether executions are lost. -/
structure Faults where
  failing : Keyed StoreError
  finishedElsewhere : Option ExecutionStatus
  statusText : Option String
  loseRows : Bool

namespace Faults

def none : Faults := ⟨[], .none, .none, false⟩

def elsewhere (status : ExecutionStatus) : Finish := ⟨status, .none, some "finished elsewhere"⟩

def answer (f : Faults) (fresh : Uuid) (now : Time.Instant) {β : Type} (c : StoreCall β)
    (m : Memory) : Except StoreError β × Memory :=
  match Keyed.get? c.name f.failing, c with
  | some e, _ => (.error e, m)
  | .none, .createExecution new =>
    let (reply, m) := m.answer fresh now (.createExecution new)
    match f.finishedElsewhere with
    | some .running => (reply, m)
    | some status =>
      (reply, (m.answer fresh now (.finishExecution fresh (elsewhere status))).2)
    | .none => (reply, m)
  | .none, .finishExecution id finish =>
    if f.loseRows then (.ok false, m) else m.answer fresh now (.finishExecution id finish)
  | .none, .getExecution id =>
    if f.loseRows then (.ok .none, m)
    else
      let (reply, m) := m.answer fresh now (.getExecution id)
      (reply.map fun row => row.map fun row =>
        { row with status := f.statusText.getD row.status }, m)
  | .none, c => m.answer fresh now c

end Faults

end Workflow
