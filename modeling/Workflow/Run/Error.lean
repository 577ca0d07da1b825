import Workflow.Definition.Order
import Workflow.Primitive.Basic

/-!
# Failures of runs

Why a workflow cannot be run, why a node of it fails, and why a run has no outcome.
-/

namespace Workflow

/-- Why a run, or a part of one, fails. -/
inductive RunError where
  | graph (e : GraphError)
  | invalidDefinition (message : String)
  | workflowNotFound (reference : String)
  | workflowDisabled (id : Uuid)
  | triggerMismatch (workflow : String) (expected found : TriggerKind)
  | nodeNotFound (nodeId : String)
  | invalidConfig (nodeId message : String)
  | notList (nodeId found : String)
  | loopIteration (nodeId : String) (index : Nat) (cause : RunError)
  | parallelBranch (nodeId branch : String) (cause : RunError)
  | primitive (nodeId : String) (cause : PrimitiveError)
  | cancelled
  | aborted (executionId : Uuid) (message : String)
  | store (cause : StoreError)

namespace RunError

def message : RunError → String
  | .graph e => e.message
  | .invalidDefinition message => "invalid workflow definition: " ++ message
  | .workflowNotFound reference => "workflow not found: " ++ reference
  | .workflowDisabled id => "workflow " ++ id.text ++ " is disabled"
  | .triggerMismatch workflow expected found =>
    "workflow '" ++ workflow ++ "' is not " ++ expected.name ++ "-triggered (found " ++
      found.name ++ ")"
  | .nodeNotFound nodeId => "node not found: '" ++ nodeId ++ "'"
  | .invalidConfig nodeId message => "node '" ++ nodeId ++ "' has invalid config: " ++ message
  | .notList nodeId found => "loop '" ++ nodeId ++ "' expected a list, found " ++ found
  | .loopIteration nodeId index cause =>
    "loop '" ++ nodeId ++ "' failed at iteration " ++ Decimal.intText index ++ ": " ++
      cause.message
  | .parallelBranch nodeId branch cause =>
    "parallel '" ++ nodeId ++ "' branch '" ++ branch ++ "' failed: " ++ cause.message
  | .primitive nodeId cause => "node '" ++ nodeId ++ "': " ++ cause.message
  | .cancelled => "execution cancelled"
  | .aborted executionId message => "execution " ++ executionId.text ++ " aborted: " ++ message
  | .store cause => "database error: " ++ cause.message

/-- Whether a failure, or the one it wraps, is that the run was told to stop. -/
def isCancellation : RunError → Bool
  | .cancelled => true
  | .loopIteration _ _ cause => cause.isCancellation
  | .parallelBranch _ _ cause => cause.isCancellation
  | _ => false

def chain : RunError → List String
  | .store cause => ("database error: " ++ cause.message) :: cause.chain
  | e => [e.message]

end RunError

end Workflow
