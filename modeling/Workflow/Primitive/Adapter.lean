import Workflow.Primitive.Registry

/-!
# Running primitives

A primitive is looked up among those that were read before, and then in the store.  It
is run if it is enabled, accepts the input, and has a handler; the handler is given up
when the time limit of the primitive is over or the caller is told to stop.  Each
invocation of a handler is logged in the store, and whether that succeeds makes no
difference to the result.
-/

namespace Workflow

/-- What primitives are run with: handlers, the environment they may see, and the time limit
in milliseconds of primitives that have none. -/
structure Adapter (H : Type) : Type 1 where
  registry : Registry H
  environment : Environment
  defaultTimeout : Nat

/-- Where a primitive is called from, and the execution whose end is its own. -/
structure CallSite where
  executionId : Option Uuid
  workflowId : Option Uuid
  nodeId : Option String
  stop : Option Uuid

def elapsedMillis (first last : Time.Instant) : Nat :=
  (((last.seconds - first.seconds) * 1000000000 + last.nanos - first.nanos) / 1000000).toNat

def millis (n : Nat) : Nat := n * 1000000

namespace Adapter

variable {H : Type}

def remember (a : Adapter H) (row : PrimitiveRow) :
    Proc (Call H) (Except PrimitiveError Primitive) :=
  match Primitive.ofRow row a.defaultTimeout with
  | .error e => .done (.error e)
  | .ok p => .askHere (.remember p) fun _ => .done (.ok p)

def found (a : Adapter H) (reference : PrimitiveRef) :
    Except StoreError (Option PrimitiveRow) → Proc (Call H) (Except PrimitiveError Primitive)
  | .error e => .done (.error (.store e))
  | .ok none => .done (.error (.notFound reference.text))
  | .ok (some row) => a.remember row

def byId (a : Adapter H) (id : Uuid) : Proc (Call H) (Except PrimitiveError Primitive) :=
  .askHere (.cached id) fun cached =>
    match cached with
    | some p => .done (.ok p)
    | none => .askStore (.findPrimitive id) (a.found (.id id))

def byName (a : Adapter H) (name : String) : Proc (Call H) (Except PrimitiveError Primitive) :=
  .askHere (.cachedByName name) fun cached =>
    match cached with
    | some p => .done (.ok p)
    | none => .askStore (.findPrimitiveByName name) (a.found (.name name))

def resolve (a : Adapter H) : PrimitiveRef → Proc (Call H) (Except PrimitiveError Primitive)
  | .id id => a.byId id
  | .name name => a.byName name

/-- Forgets a primitive, so that it is read from the store again. -/
def invalidate (id : Uuid) : Proc (Call H) Unit := .askHere (.forget id) .done

def clear : Proc (Call H) Unit := .askHere .forgetAll .done

/-- The handler that is to run a primitive on an input, unless something forbids it. -/
def gate (a : Adapter H) (p : Primitive) (input : Json) : Except PrimitiveError (Handler H) :=
  if !p.enabled then .error (.disabled p.name)
  else
    match p.schema.fault? input with
    | some fault => .error (.invalidInput p.name fault)
    | none =>
      match a.registry.find? p.name p.version with
      | none => .error (.noHandler p.name p.version)
      | some handler => .ok handler

def outcome (p : Primitive) : Ending (Except HandlerError Json) → Except PrimitiveError Json
  | .finished (.ok output) => .ok output
  | .finished (.error e) => .error (.handler p.name e)
  | .timedOut => .error (.timeout p.name p.timeout)
  | .stopped => .error (.cancelled p.name)

def record (p : Primitive) (input : Json) (site : CallSite) (startedAt finishedAt : Time.Instant)
    (result : Except PrimitiveError Json) : NewAudit :=
  { primitiveId := p.id
    executionId := site.executionId
    workflowId := site.workflowId
    nodeId := site.nodeId
    input
    output := result.toOption
    success := result.isOk
    error := match result with
      | .ok _ => none
      | .error e => some e.message
    startedAt
    finishedAt
    durationMs := elapsedMillis startedAt finishedAt }

def invoke (a : Adapter H) (p : Primitive) (handler : Handler H) (input : Json)
    (site : CallSite) : Proc (Call H) (Except PrimitiveError Json) :=
  .askClock fun startedAt =>
    .limited (some (.after (millis p.timeout))) (site.stop.map fun id => .here (.isStopped id))
      (handler ⟨p.info, a.environment⟩ input) fun ending =>
        let result := outcome p ending
        .askClock fun finishedAt =>
          .askStore (.insertAudit (record p input site startedAt finishedAt result)) fun _ =>
            .done result

def execute (a : Adapter H) (reference : PrimitiveRef) (input : Json) (site : CallSite) :
    Proc (Call H) (Except PrimitiveError Json) :=
  (a.resolve reference).bind fun resolved =>
    match resolved with
    | .error e => .done (.error e)
    | .ok p =>
      match a.gate p input with
      | .error e => .done (.error e)
      | .ok handler => a.invoke p handler input site

end Adapter

end Workflow
