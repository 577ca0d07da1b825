import Workflow.Definition.Row
import Workflow.Run.Visit
import Workflow.Text.Quoted

/-!
# The life of a run

An execution is created in the store, and then its run goes on as a task of its own, so
that it comes to an end even if nothing waits for it any more.  The run begins only if the
execution is still running in the store.  At its end the execution is finished there,
unless a request to cancel it was first; then what the store has counts.
-/

namespace Workflow

/-- Who or what starts a run, with which payload, and with which variables in place of those
of the workflow. -/
structure RunRequest where
  triggeredBy : TriggerKind
  userId : Option String
  agentId : Option String
  payload : Json
  bindings : Option (Keyed Json)

namespace RunRequest

/-- A request without a user, an agent and variables. -/
def plain (triggeredBy : TriggerKind) (payload : Json) : RunRequest :=
  ⟨triggeredBy, none, none, payload, none⟩

def scheduled (now : Time.Instant) : RunRequest :=
  plain .schedule (.ofPairs [("scheduled_at", .str now.offsetText)])

def toNew (r : RunRequest) (workflowId : Uuid) : NewExecution :=
  ⟨workflowId, r.triggeredBy.name, r.userId, r.agentId, r.payload⟩

def bindingsOver (r : RunRequest) (d : Definition) : Keyed Json :=
  Keyed.insertAll d.bindings (r.bindings.getD [])

end RunRequest

structure EngineConfig where
  environmentNames : List String
  defaultTimeout : Nat
  maxItems : Nat

def EngineConfig.standard : EngineConfig := ⟨[], 30000, 10000⟩

/-- What runs workflows: a way to run primitives, and a configuration. -/
structure Engine (H : Type) : Type 1 where
  adapter : Adapter H
  config : EngineConfig

/-- The engine with handlers and the variables that an environment has of those that
are allowed. -/
def Engine.create {H : Type} (registry : Registry H) (process : Environment)
    (config : EngineConfig) : Engine H :=
  ⟨⟨registry, process.restrict config.environmentNames, config.defaultTimeout⟩, config⟩

def cancelFinish : Finish := ⟨.cancelled, none, some "cancelled by request"⟩

def panicText (message : String) : String :=
  "task panicked with message " ++ Text.quoted message

def Visited.finish (v : Visited) (stopped : Bool) : Finish :=
  match v.ending with
  | .ok c =>
    ⟨.completed, some ((NodeResult.lastOutput? .output v.results).getD (.obj c.outputs)), none⟩
  | .error failure =>
    ⟨if stopped || failure.error.isCancellation then .cancelled else .failed, none,
      some failure.error.message⟩

def Visited.context (v : Visited) : Context :=
  match v.ending with
  | .ok c => c
  | .error failure => failure.context

namespace Engine

variable {H : Type}

def endedBefore (c : Context) (status : ExecutionStatus) (error : Option String)
    (startedAt finishedAt : Time.Instant) : Outcome :=
  { executionId := c.executionId
    workflowId := c.workflowId
    status
    startedAt := c.startedAt
    finishedAt
    durationMs := elapsedMillis startedAt finishedAt
    result := none
    error
    nodeResults := []
    errors := [] }

def outcome (visited : Visited) (finish : Finish) (status : ExecutionStatus)
    (startedAt finishedAt : Time.Instant) : Outcome :=
  let c := visited.context
  { executionId := c.executionId
    workflowId := c.workflowId
    status
    startedAt := c.startedAt
    finishedAt
    durationMs := elapsedMillis startedAt finishedAt
    result := if status = .completed then finish.result else none
    error := if status = .completed then none else finish.error
    nodeResults := visited.results
    errors := c.errors }

/-- Stamps the last run of a workflow after an execution was finished as completed.  Whether
that succeeds makes no difference. -/
def stamp (workflowId : Uuid) (applied : Bool) (status : ExecutionStatus) : Proc (Call H) Unit :=
  if applied && status = .completed then
    .askClock fun now => .askStore (.touchLastRun workflowId now) fun _ => .done ()
  else .done ()

/-- The state in which an execution ended: its own, or the one in the store if a request was
first. -/
def settled (id : Uuid) (applied : Bool) (status : ExecutionStatus) :
    Proc (Call H) (Except RunError ExecutionStatus) :=
  if applied then .done (.ok status)
  else
    .askStore (.getExecution id) fun found =>
      .done <|
        match found with
        | .error e => .error (.store e)
        | .ok none => .ok status
        | .ok (some row) => row.state.mapError .store

def conclude (visited : Visited) (stopped : Bool) (startedAt : Time.Instant) :
    Proc (Call H) (Except RunError Outcome) :=
  let c := visited.context
  let finish := visited.finish stopped
  .askStore (.finishExecution c.executionId finish) fun finished =>
    match finished with
    | .error e => .done (.error (.store e))
    | .ok applied =>
      (settled c.executionId applied finish.status).bind fun state =>
        match state with
        | .error e => .done (.error e)
        | .ok status =>
          (stamp c.workflowId applied status).bind fun _ =>
            .askClock fun finishedAt =>
              .done (.ok (outcome visited finish status startedAt finishedAt))

def walk (engine : Engine H) (d : Definition) (c : Context) (startedAt : Time.Instant) :
    Proc (Call H) (Except RunError Outcome) :=
  (Walk.start ⟨d, engine.adapter, engine.config.maxItems⟩ c).bind fun visited =>
    match visited.ending with
    | .ok _ => conclude visited false startedAt
    | .error _ =>
      .askHere (.isStopped c.executionId) fun stopped => conclude visited stopped startedAt

def perform (engine : Engine H) (d : Definition) (c : Context) :
    Proc (Call H) (Except RunError Outcome) :=
  .askClock fun startedAt =>
    .askStore (.getExecution c.executionId) fun found =>
      match found with
      | .error e => .done (.error (.store e))
      | .ok none => engine.walk d c startedAt
      | .ok (some row) =>
        match row.state with
        | .error e => .done (.error (.store e))
        | .ok status =>
          if status.isTerminal then
            .askClock fun finishedAt =>
              .done (.ok (endedBefore c status row.error startedAt finishedAt))
          else engine.walk d c startedAt

def abort (id : Uuid) (message : String) : Proc (Call H) (Except RunError Outcome) :=
  let text := panicText message
  .askStore (.finishExecution id ⟨.failed, none, some text⟩) fun finished =>
    .done <|
      match finished with
      | .error e => .error (.store e)
      | .ok _ => .error (.aborted id text)

def run (engine : Engine H) (d : Definition) (r : RunRequest) :
    Proc (Call H) (Except RunError Outcome) :=
  .askStore (.createExecution (r.toNew d.id)) fun created =>
    match created with
    | .error e => .done (.error (.store e))
    | .ok execution =>
      let c := Context.start execution.id d.id execution.startedAt r.payload (r.bindingsOver d)
      .askHere (.register execution.id) fun _ =>
        .own false ((engine.perform d c).closing (.here (.unregister execution.id))) fun ended =>
          match ended with
          | .ok outcome => .done outcome
          | .error message => abort execution.id message

end Engine

end Workflow
