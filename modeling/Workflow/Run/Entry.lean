import Workflow.Run.Lifecycle
import Workflow.Schedule.Due

/-!
# Starting runs

The ways in which workflows are started: by their identifier, by the slug of a webhook, by
an event, and by a schedule.  A workflow that is not enabled, that is not started in this
way, or that cannot be read is not run.  An execution can be cancelled and looked at.
-/

namespace Workflow.Engine

variable {H : Type}

def readDefinition (row : WorkflowRow) : Except RunError Definition :=
  (Definition.ofRow row).mapError .invalidDefinition

def loaded (reference : String) :
    Except StoreError (Option WorkflowRow) → Except RunError Definition
  | .error e => .error (.store e)
  | .ok none => .error (.workflowNotFound reference)
  | .ok (some row) => readDefinition row

/-- Runs a workflow if it is enabled. -/
def runEnabled (engine : Engine H) (d : Definition) (r : RunRequest) :
    Proc (Call H) (Except RunError Outcome) :=
  if d.enabled then engine.run d r else .done (.error (.workflowDisabled d.id))

def execute (engine : Engine H) (id : Uuid) (r : RunRequest) :
    Proc (Call H) (Except RunError Outcome) :=
  .askStore (.findWorkflow id) fun found =>
    match loaded id.text found with
    | .error e => .done (.error e)
    | .ok d => engine.runEnabled d r

def executeManual (engine : Engine H) (id : Uuid) (userId : Option String)
    (bindings : Option (Keyed Json)) : Proc (Call H) (Except RunError Outcome) :=
  engine.execute id ⟨.manual, userId, none, .obj [], bindings⟩

def executeWebhook (engine : Engine H) (slug : String) (payload : Json) :
    Proc (Call H) (Except RunError Outcome) :=
  .askStore (.findWorkflowBySlug slug) fun found =>
    match loaded slug found with
    | .error e => .done (.error e)
    | .ok d =>
      if d.trigger = .webhook then engine.runEnabled d (.plain .webhook payload)
      else .done (.error (.triggerMismatch d.slug .webhook d.trigger.kind))

/-- Runs workflows one after another.  A run without an outcome ends the sequence. -/
def runEach (engine : Engine H) (r : RunRequest) :
    List Definition → List Outcome → Proc (Call H) (Except RunError (List Outcome))
  | [], outcomes => .done (.ok outcomes)
  | d :: rest, outcomes =>
    (engine.run d r).bind fun ended =>
      match ended with
      | .error e => .done (.error e)
      | .ok outcome => engine.runEach r rest (outcomes ++ [outcome])

/-- Runs those of the enabled workflows with a kind of trigger that are chosen.  Workflows that
cannot be read are left out. -/
def runChosen (engine : Engine H) (kind : TriggerKind) (chosen : Definition → Bool)
    (r : RunRequest) : Proc (Call H) (Except RunError (List Outcome)) :=
  .askStore (.listEnabled kind.name) fun listed =>
    match listed with
    | .error e => .done (.error (.store e))
    | .ok rows =>
      engine.runEach r ((rows.filterMap fun row => (readDefinition row).toOption).filter chosen) []

def dispatchEvent (engine : Engine H) (event : String) (payload : Json) :
    Proc (Call H) (Except RunError (List Outcome)) :=
  engine.runChosen .event (fun d => d.trigger = .event event) (.plain .event payload)

def runDueSchedules (engine : Engine H) (now : Time.Instant) :
    Proc (Call H) (Except RunError (List Outcome)) :=
  engine.runChosen .schedule (fun d => d.isDue now.utc) (.scheduled now)

/-- Cancels an execution that is running, tells its run to stop, and tells whether it was
running. -/
def cancel (id : Uuid) : Proc (Call H) (Except RunError Bool) :=
  .askStore (.finishExecution id cancelFinish) fun finished =>
    match finished with
    | .error e => .done (.error (.store e))
    | .ok applied => .askHere (.signal id) fun _ => .done (.ok applied)

def getExecution (id : Uuid) : Proc (Call H) (Except RunError (Option ExecutionRow)) :=
  .askStore (.getExecution id) fun found => .done (found.mapError .store)

end Workflow.Engine
