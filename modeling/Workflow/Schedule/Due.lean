import Workflow.Definition.Basic
import Workflow.Schedule.Cron

/-!
# Due workflows

A workflow is due at an instant if it is enabled, runs on a schedule, and the cron
expression of the schedule asks for the minute of the instant.
-/

namespace Workflow.Definition

/-- Whether a workflow is due at an instant.  An expression that cannot be read never asks
for one. -/
def isDue (d : Definition) (now : Time.Zoned) : Bool :=
  d.enabled &&
    match d.trigger with
    | .schedule expression =>
      match Cron.parse expression with
      | .ok cron => cron.matches? now
      | .error _ => false
    | _ => false

end Workflow.Definition
