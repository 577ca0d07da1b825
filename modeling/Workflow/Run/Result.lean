import Workflow.Definition.Basic
import Workflow.Run.Error
import Workflow.Store.Row

/-!
# Results

What came of visits of nodes, and of a whole run.
-/

namespace Workflow

/-- What came of one visit of a node: its output, or the message of its failure. -/
structure NodeResult where
  nodeId : String
  nodeType : NodeType
  outcome : Except String Json
  startedAt : Time.Instant
  durationMs : Nat

namespace NodeResult

def success (r : NodeResult) : Bool := r.outcome.isOk

def toJson (r : NodeResult) : Json :=
  .ofPairs
    [("node_id", .str r.nodeId), ("node_type", .str r.nodeType.name), ("success", .bool r.success),
      (match r.outcome with
        | .ok output => ("output", output)
        | .error message => ("error", .str message)),
      ("started_at", r.startedAt.toJson), ("duration_ms", .ofNat r.durationMs)]

def lastOutput? (type : NodeType) (results : List NodeResult) : Option Json :=
  results.reverse.findSome? fun r => if r.nodeType = type then r.outcome.toOption else none

end NodeResult

structure Outcome where
  executionId : Uuid
  workflowId : Uuid
  status : ExecutionStatus
  startedAt : Time.Instant
  finishedAt : Time.Instant
  durationMs : Nat
  result : Option Json
  error : Option String
  nodeResults : List NodeResult
  errors : List NodeError

namespace Outcome

def succeeded (o : Outcome) : Bool := o.status = .completed

def toJson (o : Outcome) : Json :=
  .ofPairs
    ([("execution_id", o.executionId.toJson), ("workflow_id", o.workflowId.toJson),
      ("status", .str o.status.name), ("started_at", o.startedAt.toJson),
      ("finished_at", o.finishedAt.toJson), ("duration_ms", .ofNat o.durationMs)] ++
      (match o.result with
        | some v => [("result", v)]
        | none => []) ++
      (match o.error with
        | some message => [("error", .str message)]
        | none => []) ++
      [("node_results", .arr (o.nodeResults.map NodeResult.toJson)),
        ("errors", .arr (o.errors.map NodeError.toJson))])

end Outcome

end Workflow
