import Workflow.Call

/-!
# The state of the process that runs workflows

Primitives that were read from the store are kept.  An execution is in flight while its
run goes on, and only then can it be told to stop; what was told stays known to the run.
-/

namespace Workflow

/-- The primitives that are kept, the executions in flight, and those that were told to
stop. -/
structure Local where
  cache : List Primitive
  inFlight : List Uuid
  stopped : List Uuid

namespace Local

def empty : Local := ⟨[], [], []⟩

instance : Inhabited Local := ⟨empty⟩

/-- The cache without a primitive. -/
def forget (id : Uuid) (cache : List Primitive) : List Primitive :=
  cache.filter fun p => p.id != id

def remember (p : Primitive) (cache : List Primitive) : List Primitive := forget p.id cache ++ [p]

def answer {β : Type} : LocalCall β → Local → β × Local
  | .cached id, s => (s.cache.find? fun p => p.id = id, s)
  | .cachedByName name, s => (s.cache.find? fun p => p.name = name, s)
  | .remember p, s => ((), { s with cache := remember p s.cache })
  | .forget id, s => ((), { s with cache := forget id s.cache })
  | .forgetAll, s => ((), { s with cache := [] })
  | .register id, s => ((), { s with inFlight := s.inFlight ++ [id] })
  | .unregister id, s => ((), { s with inFlight := s.inFlight.filter fun e => e != id })
  | .signal id, s =>
    ((), if s.inFlight.contains id then { s with stopped := id :: s.stopped } else s)
  | .isStopped id, s => (s.stopped.contains id, s)

end Local

end Workflow
