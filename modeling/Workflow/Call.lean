import Workflow.Http.Message
import Workflow.Primitive.Basic
import Workflow.Process.Basic
import Workflow.Store.Call

/-!
# Calls

What the processes of this library call for: a store, the state of the process that
runs the workflows, the clock, the network, and whatever else handlers need.
-/

namespace Workflow

/-- A call to the state of the process that runs workflows: primitives that were read
before, the executions in flight, and the signals that tell them to stop. -/
inductive LocalCall : Type → Type where
  | cached (id : Uuid) : LocalCall (Option Primitive)
  | cachedByName (name : String) : LocalCall (Option Primitive)
  | remember (p : Primitive) : LocalCall Unit
  | forget (id : Uuid) : LocalCall Unit
  | forgetAll : LocalCall Unit
  | register (execution : Uuid) : LocalCall Unit
  | unregister (execution : Uuid) : LocalCall Unit
  | signal (execution : Uuid) : LocalCall Unit
  | isStopped (execution : Uuid) : LocalCall Bool

/-- A call, with the type of its reply.  Calls of type `H` are those of handlers that need
something of their own. -/
inductive Call (H : Type) : Type → Type 1 where
  | store {β : Type} (c : StoreCall β) : Call H (Except StoreError β)
  | here {β : Type} (c : LocalCall β) : Call H β
  | clock : Call H Time.Instant
  | exchange (r : Http.Request) : Call H (Option Http.Response)
  | custom (h : H) : Call H Json

abbrev Handler (H : Type) := HandlerContext → Json → Proc (Call H) (Except HandlerError Json)

namespace Proc

variable {H α : Type}

def askStore {β : Type} (c : StoreCall β) (next : Except StoreError β → Proc (Call H) α) :
    Proc (Call H) α := ask (.store c) next

def askHere {β : Type} (c : LocalCall β) (next : β → Proc (Call H) α) : Proc (Call H) α :=
  ask (.here c) next

def askClock (next : Time.Instant → Proc (Call H) α) : Proc (Call H) α := ask .clock next

end Proc

end Workflow
