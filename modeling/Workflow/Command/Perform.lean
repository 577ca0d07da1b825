import Workflow.Command.Job
import Workflow.Session

/-!
# Doing jobs

A job is done in a session, all at once.  What is to run in memory gets a store of its own;
a service that listens never ends, and is left to the caller.
-/

namespace Workflow

def Report.ofEnding : Except String Report → Report
  | .ok r => r
  | .error message => ⟨101, "", message ++ "\n"⟩

def Job.perform {H S : Type} (job : Job H) (s : Session H S) : Option Report × Session H S :=
  match job with
  | .report r => (some r, s)
  | .inMemory store body =>
    let (ending, s) := (s.withStore store).run body
    (some (.ofEnding ending), s)
  | .onDatabase _ body =>
    let (ending, s) := s.run body
    (some (.ofEnding ending), s)
  | .send _ statement read =>
    let (reply, s) := s.send statement
    (some (read reply), s)
  | .listen _ _ _ => (none, s)

end Workflow
