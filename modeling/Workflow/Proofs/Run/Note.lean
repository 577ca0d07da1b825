import Workflow.Call
import Workflow.Proofs.Process.Step

/-!
# Notes

Some calls concern executions: their rows, the signals that tell their runs to stop, and the
stamps that completed runs leave.  A log has a note of each such call, with its answer and the
role of the caller, in the order in which they were answered.
-/

namespace Workflow

/-- A call that concerns executions, with its answer if that matters. -/
inductive Note where
  | created (reply : Except StoreError ExecutionRow)
  | finished (id : Uuid) (f : Finish) (reply : Except StoreError Bool)
  | found (id : Uuid) (reply : Except StoreError (Option ExecutionRow))
  | touched (workflow : Uuid) (instant : Time.Instant)
  | registered (id : Uuid)
  | unregistered (id : Uuid)
  | signalled (id : Uuid)

/-- The stamp that a note is about: a workflow, and the instant of its last run. -/
def Note.stamp? : Note → Option (Uuid × Time.Instant)
  | .touched workflow instant => some (workflow, instant)
  | _ => none

/-- What is noted of a call to the store. -/
def StoreCall.note? {β : Type} : StoreCall β → Except StoreError β → Option Note
  | .createExecution _, reply => some (.created reply)
  | .finishExecution id f, reply => some (.finished id f reply)
  | .getExecution id, reply => some (.found id reply)
  | .touchLastRun id instant, _ => some (.touched id instant)
  | .findWorkflow _, _ => none
  | .findWorkflowBySlug _, _ => none
  | .listEnabled _, _ => none
  | .findPrimitive _, _ => none
  | .findPrimitiveByName _, _ => none
  | .insertAudit _, _ => none

/-- The record of a primitive that a call asks the store to insert. -/
def StoreCall.record? {β : Type} : StoreCall β → Option NewAudit
  | .insertAudit record => some record
  | _ => none

/-- What is noted of a call to the state of the process. -/
def LocalCall.note? {β : Type} : LocalCall β → Option Note
  | .register id => some (.registered id)
  | .unregister id => some (.unregistered id)
  | .signal id => some (.signalled id)
  | .cached _ => none
  | .cachedByName _ => none
  | .remember _ => none
  | .forget _ => none
  | .forgetAll => none
  | .isStopped _ => none

/-- The execution of which a call asks whether it was told to stop. -/
def LocalCall.polled? {β : Type} : LocalCall β → Option Uuid
  | .isStopped id => some id
  | _ => none

namespace Call

variable {H β : Type}

/-- What is noted of a call. -/
def note? : Call H β → β → Option Note
  | .store c, reply => c.note? reply
  | .here c, _ => c.note?
  | .clock, _ => none
  | .exchange _, _ => none
  | .custom _, _ => none

/-- The execution of which a call asks whether it was told to stop. -/
def polled? : Call H β → Option Uuid
  | .here c => c.polled?
  | _ => none

/-- The record of a primitive that a call asks to insert. -/
def record? : Call H β → Option NewAudit
  | .store c => c.record?
  | _ => none

end Call

/-- Notes with the roles of the callers, in their order. -/
abbrev Log := List (Role × Note)

namespace Log

/-- The notes of a role. -/
def notesOf (r : Role) (log : Log) : List Note :=
  log.filterMap fun e => if e.1 = r then some e.2 else none

/-- The roles that ended an execution, with what they ended it as. -/
def grants (id : Uuid) (log : Log) : List (Role × Finish) :=
  log.filterMap fun e =>
    match e.2 with
    | .finished x f (.ok true) => if x = id then some (e.1, f) else none
    | _ => none

/-- How often an execution was ended by a role. -/
def grantsBy (r : Role) (id : Uuid) (log : Log) : Nat := (log.grants id).countP fun e => e.1 = r

/-- The stamps of last runs, by workflow. -/
def stamps (log : Log) : List (Uuid × Time.Instant) := log.filterMap fun e => e.2.stamp?

/-- Whether the run of an execution was told to stop, as far as one could tell it. -/
def Signalled (id : Uuid) (log : Log) : Prop := ∃ r, (r, Note.signalled id) ∈ log

section

variable (r t : Role) (n : Note) (id x : Uuid) (log log' : Log)

@[simp] theorem notesOf_append : notesOf r (log ++ log') = notesOf r log ++ notesOf r log' :=
  List.filterMap_append

@[simp] theorem notesOf_single_self : notesOf r [(r, n)] = [n] := by simp [notesOf]

theorem notesOf_single_of_ne {r t : Role} (h : t ≠ r) : notesOf r [(t, n)] = [] := by
  simp [notesOf, h]

@[simp] theorem grants_append : grants id (log ++ log') = grants id log ++ grants id log' :=
  List.filterMap_append

@[simp] theorem grantsBy_append :
    grantsBy r id (log ++ log') = grantsBy r id log + grantsBy r id log' := by
  simp [grantsBy]

@[simp] theorem grants_granted (f : Finish) :
    grants id [(r, .finished id f (.ok true))] = [(r, f)] := by simp [grants]

@[simp] theorem stamps_append : stamps (log ++ log') = stamps log ++ stamps log' :=
  List.filterMap_append

@[simp] theorem stamps_touched (instant : Time.Instant) :
    stamps [(r, .touched id instant)] = [(id, instant)] := rfl

@[simp] theorem signalled_append :
    Signalled id (log ++ log') ↔ Signalled id log ∨ Signalled id log' := by
  simp [Signalled, exists_or]

theorem mem_notesOf : n ∈ notesOf r log ↔ (r, n) ∈ log := by
  simp only [notesOf, List.mem_filterMap]
  constructor
  · rintro ⟨⟨t, n'⟩, hmem, h⟩
    by_cases ht : t = r
    · simp only [ht, if_pos, Option.some.injEq] at h
      exact ht ▸ h ▸ hmem
    · simp [ht] at h
  · exact fun h => ⟨(r, n), h, by simp⟩

theorem mem_grants {e : Role × Finish} :
    e ∈ grants id log ↔ (e.1, Note.finished id e.2 (.ok true)) ∈ log := by
  simp only [grants, List.mem_filterMap]
  constructor
  · rintro ⟨⟨t, n⟩, hmem, h⟩
    cases n with
    | finished x f reply =>
        obtain _ | _ | _ := reply
        · simp at h
        · simp at h
        · by_cases hx : x = id
          · simp only [hx, if_pos, Option.some.injEq] at h
            exact h ▸ hx ▸ hmem
          · simp [hx] at h
    | _ => simp at h
  · exact fun h => ⟨_, h, by simp⟩

theorem grantsBy_single_of_ne {r t : Role} (h : t ≠ r) : grantsBy r id [(t, n)] = 0 := by
  rw [grantsBy, List.countP_eq_zero]
  intro e he
  rw [mem_grants, List.mem_singleton, Prod.mk.injEq] at he
  simpa [he.1] using h

end

end Log

end Workflow
