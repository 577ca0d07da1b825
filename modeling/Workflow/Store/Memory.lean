import Workflow.Store.Call

/-!
# A store in memory

A store that is a value.  Rows stand in the order in which they came.  An execution that
is not running any more stays as it is.
-/

namespace Workflow

/-- The rows of a store, and how often primitives were looked for. -/
structure Memory where
  workflows : List WorkflowRow
  executions : List ExecutionRow
  primitives : List PrimitiveRow
  audits : List AuditRow
  lookups : Nat

namespace Memory

/-- A store without rows. -/
def empty : Memory := ⟨[], [], [], [], 0⟩

instance : Inhabited Memory := ⟨empty⟩

/-- Puts a workflow at the end, in the place of one with the same identifier. -/
def putWorkflow (m : Memory) (row : WorkflowRow) : Memory :=
  { m with workflows := m.workflows.filter (fun w => w.id != row.id) ++ [row] }

/-- Puts a primitive at the end, in the place of one with the same identifier. -/
def putPrimitive (m : Memory) (row : PrimitiveRow) : Memory :=
  { m with primitives := m.primitives.filter (fun p => p.id != row.id) ++ [row] }

def modifyFirst {α : Type} (p : α → Bool) (f : α → α) : List α → List α
  | [] => []
  | a :: rest => if p a then f a :: rest else a :: modifyFirst p f rest

def workflow? (m : Memory) (id : Uuid) : Option WorkflowRow :=
  m.workflows.find? fun w => w.id = id

def workflowOfSlug? (m : Memory) (slug : String) : Option WorkflowRow :=
  m.workflows.find? fun w => w.slug = slug

def enabled (m : Memory) (triggerType : String) : List WorkflowRow :=
  m.workflows.filter fun w => w.enabled && w.triggerType = triggerType

def execution? (m : Memory) (id : Uuid) : Option ExecutionRow :=
  m.executions.find? fun e => e.id = id

def primitive? (m : Memory) (id : Uuid) : Option PrimitiveRow :=
  m.primitives.find? fun p => p.id = id

def primitiveOfName? (m : Memory) (name : String) : Option PrimitiveRow :=
  m.primitives.find? fun p => p.name = name

def touch (m : Memory) (id : Uuid) (instant : Time.Instant) : Except StoreError Memory :=
  match m.workflow? id with
  | some _ =>
    .ok
      { m with
        workflows := modifyFirst (fun w => w.id = id)
          (fun w => { w with lastRunAt := some instant }) m.workflows }
  | none => .error .notFound

def addExecution (m : Memory) (row : ExecutionRow) : Memory :=
  { m with executions := m.executions ++ [row] }

def finish (m : Memory) (id : Uuid) (f : Finish) (now : Time.Instant) :
    Except StoreError (Bool × Memory) :=
  match m.execution? id with
  | none => .ok (false, m)
  | some row =>
    match row.state with
    | .error e => .error e
    | .ok state =>
      if state.isTerminal then .ok (false, m)
      else
        .ok (true,
          { m with
            executions := modifyFirst (fun e => e.id = id) (fun e => e.finish f now) m.executions })

/-- What the store answers, given an identifier for a row that is created and the instant
at which it is asked. -/
def answer (fresh : Uuid) (now : Time.Instant) {β : Type} :
    StoreCall β → Memory → Except StoreError β × Memory
  | .findWorkflow id, m => (.ok (m.workflow? id), m)
  | .findWorkflowBySlug slug, m => (.ok (m.workflowOfSlug? slug), m)
  | .listEnabled triggerType, m => (.ok (m.enabled triggerType), m)
  | .touchLastRun id instant, m =>
    match m.touch id instant with
    | .ok m => (.ok (), m)
    | .error e => (.error e, m)
  | .createExecution new, m =>
    let row := new.toRow fresh now
    (.ok row, m.addExecution row)
  | .finishExecution id f, m =>
    match m.finish id f now with
    | .ok (applied, m) => (.ok applied, m)
    | .error e => (.error e, m)
  | .getExecution id, m => (.ok (m.execution? id), m)
  | .findPrimitive id, m => (.ok (m.primitive? id), { m with lookups := m.lookups + 1 })
  | .findPrimitiveByName name, m =>
    (.ok (m.primitiveOfName? name), { m with lookups := m.lookups + 1 })
  | .insertAudit record, m => (.ok (), { m with audits := m.audits ++ [⟨record, fresh⟩] })

end Memory

end Workflow
