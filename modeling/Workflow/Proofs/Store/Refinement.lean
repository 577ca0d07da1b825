import Mathlib.Data.List.Forall2
import Workflow.Proofs.Store.Carrying
import Workflow.Proofs.Store.Orders

/-!
# Both stores answer alike

A store in a database and a store in memory that hold the same workflows are asked the same, one
question after the other.  What stands in the tables mirrors the rows in memory all along, so the
answers are the same up to the identifiers of executions, which each store makes up, and what the
clocks of the stores say.
-/

namespace Workflow

open Sql

variable {ρ : Uuid → Uuid} {β : Type}

/-! ### Questions -/

namespace StoreCall

/-- A question with the identifiers that executions have in a database. -/
def rename (ρ : Uuid → Uuid) : {β : Type} → StoreCall β → StoreCall β
  | _, .finishExecution id f => .finishExecution (ρ id) f
  | _, .getExecution id => .getExecution (ρ id)
  | _, call => call

/-- Whether a question is about workflows and executions.  Executions are created for workflows
that are there, and are ended for good. -/
def Permitted (ids : List Uuid) : {β : Type} → StoreCall β → Prop
  | _, .createExecution new => new.workflowId ∈ ids
  | _, .finishExecution _ f => f.status.isTerminal = true
  | _, .findPrimitive _ => False
  | _, .findPrimitiveByName _ => False
  | _, .insertAudit _ => False
  | _, _ => True

/-- The identifier of the row that is created, if one is. -/
def created? (fresh : Uuid) : {β : Type} → StoreCall β → Option Uuid
  | _, .createExecution _ => some fresh
  | _, _ => none

/-- The execution that was ended, if one was. -/
def ended? : {β : Type} → StoreCall β → Except StoreError β → Option Uuid
  | _, .finishExecution id _, .ok true => some id
  | _, _, _ => none

/-- Whether an order to end an execution came to nothing. -/
def Declined : {β : Type} → StoreCall β → Except StoreError β → Prop
  | _, .finishExecution _ _, .ok false => True
  | _, _, _ => False

end StoreCall

/-- Whether executions are the same, up to the identifiers that stores made up and what their
clocks said. -/
structure ExecutionRow.Alike (ρ : Uuid → Uuid) (e e' : ExecutionRow) : Prop where
  row : e' = { e with id := ρ e.id, startedAt := e'.startedAt, finishedAt := e'.finishedAt }
  finished : e'.finishedAt.isSome = e.finishedAt.isSome

/-- Whether two answers to a question are the same, up to the identifiers that stores made up and
what clocks said. -/
def StoreCall.Same (ρ : Uuid → Uuid) : {β : Type} → StoreCall β → β → β → Prop
  | _, .findWorkflow _, w, w' => w' = w.map WorkflowRow.stored
  | _, .findWorkflowBySlug _, w, w' => w' = w.map WorkflowRow.stored
  | _, .listEnabled _, ws, ws' => ws' = ws.map WorkflowRow.stored
  | _, .createExecution _, e, e' => e.Alike ρ e'
  | _, .getExecution _, e, e' => Option.Rel (ExecutionRow.Alike ρ) e e'
  | _, _, a, a' => a' = a

/-- Both stores give the same answer, or none finds what the question is about. -/
inductive Agree (ρ : Uuid → Uuid) (call : StoreCall β) :
    Except StoreError β → Except StoreError β → Prop
  | ok {a a' : β} (h : call.Same ρ a a') : Agree ρ call (.ok a) (.ok a')
  | notFound : Agree ρ call (.error .notFound) (.error .notFound)

/-- A question to both stores, with an identifier for a new row and what the clocks say. -/
structure Ask where
  {Answer : Type}
  call : StoreCall Answer
  fresh : Uuid
  memoryNow : Time.Instant
  databaseNow : Time.Instant

namespace Ask

def inMemory (a : Ask) (m : Memory) : Except StoreError a.Answer × Memory :=
  Memory.answer a.fresh a.memoryNow a.call m

def inDatabase {D : Type} (ρ : Uuid → Uuid) (database : Statement → D → Except String Reply × D)
    (a : Ask) (d : D) : Except StoreError a.Answer × D :=
  Sql.answer database (ρ a.fresh) a.databaseNow (a.call.rename ρ) d

def created? (a : Ask) : Option Uuid := a.call.created? a.fresh

end Ask

/-! ### Mirrored rows -/

/-- What holds of the rows in memory all along. -/
structure Memory.Regular (m : Memory) : Prop where
  ids : (m.workflows.map WorkflowRow.id).Nodup
  slugs : (m.workflows.map WorkflowRow.slug).Nodup
  created : m.workflows.Pairwise fun a b =>
    (storedInstant a.createdAt).inNanos < (storedInstant b.createdAt).inNanos
  executionIds : (m.executions.map ExecutionRow.id).Nodup
  statuses : ∀ e ∈ m.executions, ∃ status : ExecutionStatus, e.status = status.name
  known : ∀ e ∈ m.executions, e.workflowId ∈ m.workflows.map WorkflowRow.id

/-- Whether an execution is there and is not running. -/
def Memory.Stopped (m : Memory) (id : Uuid) : Prop :=
  ∃ e ∈ m.executions, e.id = id ∧ e.status ≠ ExecutionStatus.running.name

/-- The tables hold what the memory holds. -/
structure Mirrors (ρ : Uuid → Uuid) (m : Memory) (tables : Tables) : Prop where
  workflows : tables "workflows" = (m.workflows.map WorkflowRow.stored).map WorkflowRow.cells
  executions : ∃ es, List.Forall₂ (ExecutionRow.Alike ρ) m.executions es ∧
    tables "workflow_executions" = es.map ExecutionRow.cells

section

variable {e e' : ExecutionRow} {es es' : List ExecutionRow}

theorem ExecutionRow.Alike.finish (h : e.Alike ρ e') (f : Finish) (now now' : Time.Instant) :
    (e.finish f now).Alike ρ (e'.finish f now') := by
  refine ⟨?_, rfl⟩
  rw [h.row]
  rfl

theorem NewExecution.toRow_alike (new : NewExecution) (id : Uuid) (now now' : Time.Instant) :
    (new.toRow id now).Alike ρ (new.toRow (ρ id) now') := ⟨rfl, rfl⟩

theorem ExecutionRow.Alike.id_eq (h : e.Alike ρ e') : e'.id = ρ e.id := by rw [h.row]

theorem ExecutionRow.Alike.decide_id (h : e.Alike ρ e') (hρ : Function.Injective ρ) (id : Uuid) :
    decide (e'.id = ρ id) = decide (e.id = id) := by
  rw [h.id_eq]
  exact decide_eq_decide.mpr hρ.eq_iff

theorem ExecutionRow.Alike.status_eq (h : e.Alike ρ e') : e'.status = e.status := by rw [h.row]

theorem ExecutionRow.Alike.workflowId_eq (h : e.Alike ρ e') : e'.workflowId = e.workflowId := by
  rw [h.row]

end

/-! ### Lists side by side -/

section

variable {α γ : Type} {R : α → γ → Prop} {as : List α} {cs : List γ} {p : α → Bool} {q : γ → Bool}

theorem any_eq_of_forall₂ (h : List.Forall₂ R as cs) (hpq : ∀ a c, R a c → q c = p a) :
    cs.any q = as.any p := by
  induction h with
  | nil => rfl
  | cons hac _ ih => rw [List.any_cons, List.any_cons, hpq _ _ hac, ih]

theorem find?_rel_of_forall₂ (h : List.Forall₂ R as cs) (hpq : ∀ a c, R a c → q c = p a) :
    Option.Rel R (as.find? p) (cs.find? q) := by
  induction h with
  | nil => exact .none
  | @cons a c as cs hac _ ih =>
      cases hp : p a with
      | true =>
          rw [List.find?_cons_of_pos hp, List.find?_cons_of_pos ((hpq a c hac).trans hp)]
          exact .some hac
      | false =>
          have hq := (hpq a c hac).trans hp
          rw [List.find?_cons_of_neg (by simp [hp]), List.find?_cons_of_neg (by simp [hq])]
          exact ih

theorem exists_of_mem_of_forall₂ {c : γ} (h : List.Forall₂ R as cs) (hc : c ∈ cs) :
    ∃ a ∈ as, R a c := by
  induction h with
  | nil => cases hc
  | @cons a c' as cs hac _ ih =>
      rcases List.mem_cons.mp hc with rfl | hc
      · exact ⟨a, List.mem_cons_self, hac⟩
      · obtain ⟨b, hb, hbc⟩ := ih hc
        exact ⟨b, List.mem_cons_of_mem a hb, hbc⟩

theorem map_eq_of_forall₂ {κ : Type} {f : α → κ} {g : γ → κ} (h : List.Forall₂ R as cs)
    (hfg : ∀ a c, R a c → g c = f a) : cs.map g = as.map f := by
  induction h with
  | nil => rfl
  | cons hac _ ih => rw [List.map_cons, List.map_cons, hfg _ _ hac, ih]

theorem forall₂_change {f : α → α} {g : γ → γ} (h : List.Forall₂ R as cs)
    (hpq : ∀ a c, R a c → q c = p a) (hfg : ∀ a c, R a c → R (f a) (g c)) :
    List.Forall₂ R (as.map fun a => if p a then f a else a)
      (cs.map fun c => if q c then g c else c) := by
  rw [List.forall₂_map_left_iff, List.forall₂_map_right_iff]
  refine h.imp fun a c hac => ?_
  rw [hpq a c hac]
  split
  · exact hfg a c hac
  · exact hac

end

/-! ### Orders in memory -/

namespace Memory

variable {m : Memory} {id : Uuid}

/-- An order to end an execution reaches it if it is running. -/
theorem Regular.finish_eq (h : m.Regular) (f : Finish) (now : Time.Instant) :
    m.finish id f now = .ok (m.executions.any fun e => e.isRunningOf id,
      { m with executions :=
          m.executions.map fun e => if e.isRunningOf id then e.finish f now else e }) := by
  have hidle (hnone : ∀ e ∈ m.executions, e.isRunningOf id = false) :
      (false, m) = (m.executions.any fun e => e.isRunningOf id,
        { m with executions :=
            m.executions.map fun e => if e.isRunningOf id then e.finish f now else e }) := by
    have hany : (m.executions.any fun e => e.isRunningOf id) = false :=
      List.any_eq_false.mpr fun e he => by simp [hnone e he]
    rw [map_of_any_eq_false hany, hany]
  rw [finish]
  cases hrow : m.execution? id with
  | none =>
      refine congrArg _ (hidle fun e he => ?_)
      have hid : e.id ≠ id := by simpa using List.find?_eq_none.mp hrow e he
      simp [ExecutionRow.isRunningOf, hid]
  | some row =>
      have hmem : row ∈ m.executions := List.mem_of_find?_eq_some hrow
      have hid : row.id = id := by simpa using List.find?_some hrow
      have honly : ∀ e ∈ m.executions, e.id = id → e = row :=
        fun e => eq_of_find? h.executionIds hrow
      obtain ⟨status, hstatus⟩ := h.statuses row hmem
      have hstate : row.state = .ok status := by
        rw [ExecutionRow.state, hstatus, ExecutionStatus.parse_name]
      simp only [hstate]
      split
      case isTrue hterm =>
        refine congrArg _ (hidle fun e he => ?_)
        by_cases he' : e.id = id
        · have hname := status.isTerminal_iff.mp hterm
          simp [ExecutionRow.isRunningOf, honly e he he', hstatus, hname]
        · simp [ExecutionRow.isRunningOf, he']
      case isFalse hterm =>
        have hrunning : row.status = ExecutionStatus.running.name := by
          rw [status.isTerminal_iff, not_not] at hterm
          exact hstatus.trans hterm
        have hany : (m.executions.any fun e => e.isRunningOf id) = true :=
          List.any_eq_true.mpr ⟨row, hmem, by simp [ExecutionRow.isRunningOf, hid, hrunning]⟩
        have hmap : ∀ e ∈ m.executions, (if e.id = id then e.finish f now else e) =
            if e.isRunningOf id then e.finish f now else e := by
          intro e he
          by_cases he' : e.id = id
          · simp [ExecutionRow.isRunningOf, hid, honly e he he', hrunning]
          · simp [ExecutionRow.isRunningOf, he']
        have hfirst := modifyFirst_eq_map (f := fun e => e.finish f now) h.executionIds id
        rw [hany, ← List.map_congr_left hmap, ← hfirst]

theorem Regular.not_stopped (h : m.Regular)
    (hany : (m.executions.any fun e => e.isRunningOf id) = true) : ¬ m.Stopped id := by
  obtain ⟨e, he, hreached⟩ := List.any_eq_true.mp hany
  obtain ⟨hid, hstatus⟩ : e.id = id ∧ e.status = ExecutionStatus.running.name := by
    simpa [ExecutionRow.isRunningOf] using hreached
  rintro ⟨e', he', hid', hstatus'⟩
  have hsame : e' = e := List.inj_on_of_nodup_map h.executionIds he' he (hid'.trans hid.symm)
  exact hstatus' (hsame ▸ hstatus)

/-- What is not running is not reached by an order to end an execution. -/
theorem Stopped.ending {x : Uuid} (h : m.Stopped x) (id : Uuid) (f : Finish)
    (now : Time.Instant) :
    Stopped { m with executions :=
      m.executions.map fun e => if e.isRunningOf id then e.finish f now else e } x := by
  obtain ⟨e, he, hid, hstatus⟩ := h
  have hidle : ¬ e.isRunningOf id = true := by simp [ExecutionRow.isRunningOf, hstatus]
  exact ⟨e, List.mem_map.mpr ⟨e, he, if_neg hidle⟩, hid, hstatus⟩

theorem stopped_ending {f : Finish} (now : Time.Instant)
    (hany : (m.executions.any fun e => e.isRunningOf id) = true)
    (hterminal : f.status.isTerminal = true) :
    Stopped { m with executions :=
      m.executions.map fun e => if e.isRunningOf id then e.finish f now else e } id := by
  obtain ⟨e, he, hreached⟩ := List.any_eq_true.mp hany
  have hid : e.id = id := by simpa using (Bool.and_eq_true_iff.mp hreached).1
  exact ⟨_, List.mem_map.mpr ⟨e, he, if_pos hreached⟩, hid, f.status.isTerminal_iff.mp hterminal⟩

/-- A stamp reaches the workflow of its identifier. -/
theorem Regular.touch_eq_map (h : m.Regular) (instant : Time.Instant) :
    m.touch id instant =
      if m.workflows.any fun w => w.id = id then
        .ok { m with workflows :=
          m.workflows.map fun w => if w.id = id then { w with lastRunAt := some instant } else w }
      else .error .notFound := by
  have hsome : (m.workflow? id).isSome = m.workflows.any fun w => w.id = id := by
    rw [Bool.eq_iff_iff, workflow?, List.find?_isSome, List.any_eq_true]
  rw [touch_eq, hsome, stamped, modifyFirst_eq_map h.ids]

end Memory

namespace Memory.Regular

variable {m : Memory}

theorem addExecution (h : m.Regular) {new : NewExecution} {fresh : Uuid} (now : Time.Instant)
    (hknown : new.workflowId ∈ m.workflows.map WorkflowRow.id)
    (hfresh : fresh ∉ m.executions.map ExecutionRow.id) :
    (m.addExecution (new.toRow fresh now)).Regular where
  ids := h.ids
  slugs := h.slugs
  created := h.created
  executionIds := by
    have hids : (m.executions ++ [new.toRow fresh now]).map ExecutionRow.id =
        m.executions.map ExecutionRow.id ++ [fresh] := List.map_append
    rw [Memory.addExecution, hids]
    exact List.nodup_append.mpr ⟨h.executionIds, List.nodup_singleton _,
      fun x hx y hy => by rw [List.mem_singleton.mp hy]; exact fun heq => hfresh (heq ▸ hx)⟩
  statuses e he := by
    rcases List.mem_append.mp he with he | he
    · exact h.statuses e he
    · rw [List.mem_singleton.mp he]
      exact ⟨.running, rfl⟩
  known e he := by
    rcases List.mem_append.mp he with he | he
    · exact h.known e he
    · rw [List.mem_singleton.mp he]
      exact hknown

/-- Changes that leave the identifiers of executions, and leave them for workflows that are
there. -/
theorem changeExecutions (h : m.Regular) (p : ExecutionRow → Bool) (f : Finish)
    (now : Time.Instant) :
    Memory.Regular
      { m with executions := m.executions.map fun e => if p e then e.finish f now else e } where
  ids := h.ids
  slugs := h.slugs
  created := h.created
  executionIds := by
    rw [map_key_of_change (fun e => p e = true) (fun e => e.finish f now) fun _ => rfl]
    exact h.executionIds
  statuses := List.forall_mem_map.mpr fun e he => by
    cases p e with
    | true => exact ⟨f.status, rfl⟩
    | false => exact h.statuses e he
  known := List.forall_mem_map.mpr fun e he => by
    cases p e with
    | true => exact h.known e he
    | false => exact h.known e he

theorem stamp (h : m.Regular) (id : Uuid) (instant : Time.Instant) :
    Memory.Regular
      { m with workflows := m.workflows.map fun w =>
          if w.id = id then { w with lastRunAt := some instant } else w } := by
  have hkey {κ : Type} (key : WorkflowRow → κ)
      (hkey : ∀ w : WorkflowRow, key { w with lastRunAt := some instant } = key w) :=
    map_key_of_change (fun w => w.id = id) _ hkey m.workflows
  refine ⟨?_, ?_, ?_, h.executionIds, h.statuses, ?_⟩
  · rw [hkey _ fun _ => rfl]
    exact h.ids
  · rw [hkey _ fun _ => rfl]
    exact h.slugs
  · have hcreated := List.pairwise_map (R := (· < ·)).mpr h.created
    rw [← hkey _ fun _ => rfl] at hcreated
    exact List.pairwise_map.mp hcreated
  · rw [hkey _ fun _ => rfl]
    exact h.known

end Memory.Regular

/-! ### Steps -/

section

variable {D : Type} {database : Statement → D → Except String Reply × D} {tables : D → Tables}
  {m : Memory} {d : D} {t : Tables} {es : List ExecutionRow} {call : StoreCall β} {fresh : Uuid}

/-- What comes of a question to both stores: they answer it alike, and the tables still mirror the
memory. -/
structure InStep (ρ : Uuid → Uuid) (tables : D → Tables) (call : StoreCall β) (fresh : Uuid)
    (m : Memory) (d : D) (r : Except StoreError β × Memory) (r' : Except StoreError β × D) :
    Prop where
  agree : Agree ρ call r.1 r'.1
  mirrors : Mirrors ρ r.2 (tables r'.2)
  regular : r.2.Regular
  ids : r.2.workflows.map WorkflowRow.id = m.workflows.map WorkflowRow.id
  executionIds : r.2.executions.map ExecutionRow.id =
    m.executions.map ExecutionRow.id ++ (call.created? fresh).toList
  declined : call.Declined r.1 → r.2 = m ∧ tables r'.2 = tables d
  stopped : ∀ id, m.Stopped id → r.2.Stopped id
  ended : ∀ id, call.ended? r.1 = some id → ¬ m.Stopped id ∧ r.2.Stopped id

/-- A question that changes nothing. -/
theorem InStep.of_reading {r : Except StoreError β × Memory} {r' : Except StoreError β × D}
    (hm : m.Regular) (hmirrors : Mirrors ρ m (tables d)) (hagree : Agree ρ call r.1 r'.1)
    (hmemory : r.2 = m) (htables : tables r'.2 = tables d) (hcreated : call.created? fresh = none)
    (hended : call.ended? r.1 = none) : InStep ρ tables call fresh m d r r' where
  agree := hagree
  mirrors := by rw [hmemory, htables]; exact hmirrors
  regular := by rw [hmemory]; exact hm
  ids := by rw [hmemory]
  executionIds := by rw [hmemory, hcreated]; exact (List.append_nil _).symm
  declined := fun _ => ⟨hmemory, htables⟩
  stopped := fun _ h => by rw [hmemory]; exact h
  ended := fun _ h => by rw [hended] at h; cases h

theorem Memory.Regular.accepts_workflows (hm : m.Regular) :
    Schema.workflows.Accepts t ((m.workflows.map WorkflowRow.stored).map WorkflowRow.cells) := by
  refine Workflow.accepts_workflows ?_ ?_
  · rw [List.map_map]
    exact hm.ids
  · rw [List.map_map]
    exact hm.slugs

theorem Memory.Regular.nodup_alike (hm : m.Regular) (hρ : Function.Injective ρ)
    (hes : List.Forall₂ (ExecutionRow.Alike ρ) m.executions es) :
    (es.map ExecutionRow.id).Nodup := by
  have hids : es.map ExecutionRow.id = (m.executions.map ExecutionRow.id).map ρ := by
    rw [List.map_map]
    exact map_eq_of_forall₂ hes fun _ _ h => h.id_eq
  rw [hids]
  exact hm.executionIds.map hρ

theorem Memory.Regular.accepts_executions (hm : m.Regular) (hρ : Function.Injective ρ)
    (hes : List.Forall₂ (ExecutionRow.Alike ρ) m.executions es)
    (hworkflows : t "workflows" = (m.workflows.map WorkflowRow.stored).map WorkflowRow.cells) :
    Schema.executions.Accepts t (es.map ExecutionRow.cells) := by
  have hids : (m.workflows.map WorkflowRow.stored).map WorkflowRow.id =
      m.workflows.map WorkflowRow.id := List.map_map
  refine Workflow.accepts_executions hworkflows (hm.nodup_alike hρ hes) (fun e' he' => ?_)
    fun e' he' => ?_
  · obtain ⟨e, he, halike⟩ := exists_of_mem_of_forall₂ hes he'
    rw [halike.status_eq]
    exact hm.statuses e he
  · obtain ⟨e, he, halike⟩ := exists_of_mem_of_forall₂ hes he'
    rw [halike.workflowId_eq, hids]
    exact hm.known e he

section

variable (hdatabase : Obeys database tables) (hρ : Function.Injective ρ) (hm : m.Regular)
  (hmirrors : Mirrors ρ m (tables d)) (now now' : Time.Instant)

include hdatabase hm hmirrors

theorem findWorkflow_inStep (id : Uuid) :
    InStep ρ tables (.findWorkflow id) fresh m d (Memory.answer fresh now (.findWorkflow id) m)
      (Sql.answer database (ρ fresh) now' (.findWorkflow id) d) := by
  have hids : ((m.workflows.map WorkflowRow.stored).map WorkflowRow.id).Nodup := by
    rw [List.map_map]
    exact hm.ids
  obtain ⟨htables, hreply⟩ := hdatabase.find (d := d) (k := id)
    (.inl ⟨_, ρ fresh, now', .findWorkflow id, rfl⟩) readWorkflow_cells
    hmirrors.workflows hids fun _ => rfl
  have hfound : (Sql.answer database (ρ fresh) now' (.findWorkflow id) d).1 =
      .ok ((m.workflow? id).map WorkflowRow.stored) := hreply.trans (congrArg _ List.find?_map)
  refine .of_reading hm hmirrors ?_ rfl htables rfl rfl
  rw [hfound]
  exact .ok rfl

theorem findWorkflowBySlug_inStep (slug : String) :
    InStep ρ tables (.findWorkflowBySlug slug) fresh m d
      (Memory.answer fresh now (.findWorkflowBySlug slug) m)
      (Sql.answer database (ρ fresh) now' (.findWorkflowBySlug slug) d) := by
  have hslugs : ((m.workflows.map WorkflowRow.stored).map WorkflowRow.slug).Nodup := by
    rw [List.map_map]
    exact hm.slugs
  obtain ⟨htables, hreply⟩ := hdatabase.find (d := d) (k := slug)
    (.inl ⟨_, ρ fresh, now', .findWorkflowBySlug slug, rfl⟩) readWorkflow_cells
    hmirrors.workflows hslugs fun _ => rfl
  have hfound : (Sql.answer database (ρ fresh) now' (.findWorkflowBySlug slug) d).1 =
      .ok ((m.workflowOfSlug? slug).map WorkflowRow.stored) :=
    hreply.trans (congrArg _ List.find?_map)
  refine .of_reading hm hmirrors ?_ rfl htables rfl rfl
  rw [hfound]
  exact .ok rfl

theorem listEnabled_inStep (triggerType : String) :
    InStep ρ tables (.listEnabled triggerType) fresh m d
      (Memory.answer fresh now (.listEnabled triggerType) m)
      (Sql.answer database (ρ fresh) now' (.listEnabled triggerType) d) := by
  have hcreated : (m.workflows.map WorkflowRow.stored).Pairwise
      fun a b => a.createdAt.inNanos < b.createdAt.inNanos := List.pairwise_map.mpr hm.created
  obtain ⟨htables, found, hperm, horder, hreply⟩ :=
    hdatabase.listEnabled (ρ fresh) now' hmirrors.workflows triggerType
  have hfound : found = (m.enabled triggerType).map WorkflowRow.stored := by
    refine (eq_of_perm_of_pairwise hperm (hcreated.filter _) horder).trans ?_
    rw [List.filter_map]
    rfl
  refine .of_reading hm hmirrors ?_ rfl htables rfl rfl
  rw [hreply, hfound]
  exact .ok rfl

theorem touchLastRun_inStep (id : Uuid) (instant : Time.Instant) :
    InStep ρ tables (.touchLastRun id instant) fresh m d
      (Memory.answer fresh now (.touchLastRun id instant) m)
      (Sql.answer database (ρ fresh) now' (.touchLastRun id instant) d) := by
  have hstamped : ((m.workflows.map WorkflowRow.stored).map fun w =>
        if w.id = id then { w with lastRunAt := some (storedInstant instant) } else w) =
      (m.workflows.map fun w => if w.id = id then { w with lastRunAt := some instant } else w).map
        WorkflowRow.stored := by
    rw [List.map_map, List.map_map]
    refine List.map_congr_left fun w _ => ?_
    rw [Function.comp_apply, Function.comp_apply, apply_ite WorkflowRow.stored]
    rfl
  have hregular := hm.stamp id instant
  have haccepts := hregular.accepts_workflows (t := tables d)
  rw [← hstamped] at haccepts
  obtain ⟨htables, hreply⟩ :=
    hdatabase.touchLastRun (ρ fresh) now' hmirrors.workflows id instant haccepts
  rw [hstamped] at htables
  rw [List.any_map] at hreply
  cases hany : m.workflows.any fun w => w.id = id with
  | true =>
      have hmemory : Memory.answer fresh now (.touchLastRun id instant) m =
          (.ok (), { m with workflows := m.workflows.map fun w =>
            if w.id = id then { w with lastRunAt := some instant } else w }) := by
        rw [Memory.answer, hm.touch_eq_map, if_pos hany]
      rw [hmemory]
      constructor
      · have hok := hreply.trans (if_pos hany)
        rw [hok]
        exact .ok rfl
      · rw [htables]
        exact ⟨Function.update_self .., hmirrors.executions⟩
      · exact hregular
      · exact Memory.map_key_of_change (fun w : WorkflowRow => w.id = id)
          (fun w => { w with lastRunAt := some instant }) (fun _ => rfl) m.workflows
      · exact (List.append_nil _).symm
      · exact fun h => h.elim
      · exact fun _ h => h
      · exact fun _ h => nomatch h
  | false =>
      have hmemory : Memory.answer fresh now (.touchLastRun id instant) m =
          (.error .notFound, m) := by
        rw [Memory.answer, hm.touch_eq_map, if_neg (Bool.eq_false_iff.mp hany)]
      have hsame := Memory.map_of_any_eq_false
        (f := fun w : WorkflowRow => { w with lastRunAt := some instant }) hany
      simp only [decide_eq_true_eq] at hsame
      rw [hsame, ← hmirrors.workflows, Function.update_eq_self] at htables
      refine .of_reading hm hmirrors ?_ (congrArg Prod.snd hmemory) htables rfl rfl
      have herror := hreply.trans (if_neg (Bool.eq_false_iff.mp hany))
      rw [hmemory, herror]
      exact .notFound

theorem getExecution_inStep (hρ : Function.Injective ρ) (id : Uuid) :
    InStep ρ tables (.getExecution id) fresh m d (Memory.answer fresh now (.getExecution id) m)
      (Sql.answer database (ρ fresh) now' (.getExecution (ρ id)) d) := by
  obtain ⟨es, hes, hrows⟩ := hmirrors.executions
  obtain ⟨htables, hreply⟩ := hdatabase.find (d := d) (k := ρ id)
    (.inl ⟨_, ρ fresh, now', .getExecution (ρ id), rfl⟩) readExecution_cells
    hrows (hm.nodup_alike hρ hes) fun _ => rfl
  have hfound : (Sql.answer database (ρ fresh) now' (.getExecution (ρ id)) d).1 =
      .ok (es.find? fun e => e.id = ρ id) := hreply
  refine .of_reading hm hmirrors ?_ rfl htables rfl rfl
  rw [hfound]
  exact .ok (find?_rel_of_forall₂ hes fun _ _ halike => halike.decide_id hρ id)

theorem createExecution_inStep (hρ : Function.Injective ρ) {new : NewExecution}
    (hknown : new.workflowId ∈ m.workflows.map WorkflowRow.id)
    (hfresh : fresh ∉ m.executions.map ExecutionRow.id) :
    InStep ρ tables (.createExecution new) fresh m d
      (Memory.answer fresh now (.createExecution new) m)
      (Sql.answer database (ρ fresh) now' (.createExecution new) d) := by
  obtain ⟨es, hes, hrows⟩ := hmirrors.executions
  have hregular := hm.addExecution now hknown hfresh
  have halike := new.toRow_alike (ρ := ρ) fresh now (storedInstant now')
  have hmore : List.Forall₂ (ExecutionRow.Alike ρ) (m.addExecution (new.toRow fresh now)).executions
      (es ++ [new.toRow (ρ fresh) (storedInstant now')]) :=
    List.rel_append hes (.cons halike .nil)
  obtain ⟨htables, hreply⟩ := hdatabase.createExecution (ρ fresh) now' hrows new
    (hregular.accepts_executions hρ hmore hmirrors.workflows)
  constructor
  · rw [hreply]
    exact .ok halike
  · rw [htables]
    refine ⟨hmirrors.workflows, _, hmore, Function.update_self ..⟩
  · exact hregular
  · rfl
  · exact List.map_append
  · exact fun h => h.elim
  · rintro id ⟨e, he, hstopped⟩
    exact ⟨e, List.mem_append_left _ he, hstopped⟩
  · exact fun _ h => nomatch h

theorem finishExecution_inStep (hρ : Function.Injective ρ) (id : Uuid) {f : Finish}
    (hterminal : f.status.isTerminal = true) :
    InStep ρ tables (.finishExecution id f) fresh m d
      (Memory.answer fresh now (.finishExecution id f) m)
      (Sql.answer database (ρ fresh) now' (.finishExecution (ρ id) f) d) := by
  obtain ⟨es, hes, hrows⟩ := hmirrors.executions
  have hrunning (e e' : ExecutionRow) (halike : e.Alike ρ e') :
      e'.isRunningOf (ρ id) = e.isRunningOf id := by
    rw [ExecutionRow.isRunningOf, ExecutionRow.isRunningOf, halike.decide_id hρ, halike.status_eq]
  have hchanged := forall₂_change hes hrunning fun _ _ halike =>
    halike.finish f now (storedInstant now')
  have hregular := hm.changeExecutions (fun e => e.isRunningOf id) f now
  obtain ⟨htables, hreply⟩ := hdatabase.finishExecution (ρ fresh) now' hrows
    (hm.nodup_alike hρ hes) (ρ id) f
    (hregular.accepts_executions hρ hchanged hmirrors.workflows)
  rw [any_eq_of_forall₂ hes hrunning] at hreply
  have hmemory : Memory.answer fresh now (.finishExecution id f) m =
      (.ok (m.executions.any fun e => e.isRunningOf id),
        { m with executions :=
            m.executions.map fun e => if e.isRunningOf id then e.finish f now else e }) := by
    rw [Memory.answer, hm.finish_eq]
  rw [hmemory]
  constructor
  · rw [hreply]
    exact .ok rfl
  · rw [htables]
    exact ⟨hmirrors.workflows, _, hchanged, Function.update_self ..⟩
  · exact hregular
  · rfl
  · have hids : (m.executions.map fun e => if e.isRunningOf id then e.finish f now else e).map
        ExecutionRow.id = m.executions.map ExecutionRow.id :=
      Memory.map_key_of_change (fun e : ExecutionRow => e.isRunningOf id = true)
        (fun e => e.finish f now) (fun _ => rfl) m.executions
    exact hids.trans (List.append_nil _).symm
  · intro hdeclined
    have hnone : (m.executions.any fun e => e.isRunningOf id) = false := by
      cases hany : m.executions.any fun e => e.isRunningOf id with
      | true => rw [hany] at hdeclined; exact hdeclined.elim
      | false => rfl
    have hnone' := (any_eq_of_forall₂ hes hrunning).trans hnone
    rw [htables, Memory.map_of_any_eq_false hnone, Memory.map_of_any_eq_false hnone', ← hrows]
    exact ⟨rfl, Function.update_eq_self ..⟩
  · exact fun _ hstopped => hstopped.ending id f now
  · intro x hended
    cases hany : m.executions.any fun e => e.isRunningOf id with
    | false => rw [hany] at hended; cases hended
    | true =>
        rw [hany] at hended
        cases hended
        exact ⟨hm.not_stopped hany, Memory.stopped_ending now hany hterminal⟩

/-- Both stores answer a question alike, and the tables mirror the memory as before. -/
theorem inStep (hρ : Function.Injective ρ) {a : Ask}
    (hpermitted : a.call.Permitted (m.workflows.map WorkflowRow.id))
    (hfresh : ∀ id ∈ a.created?, id ∉ m.executions.map ExecutionRow.id) :
    InStep ρ tables a.call a.fresh m d (a.inMemory m) (a.inDatabase ρ database d) := by
  obtain ⟨call, fresh, now, now'⟩ := a
  cases call with
  | findWorkflow id => exact findWorkflow_inStep hdatabase hm hmirrors now now' id
  | findWorkflowBySlug slug => exact findWorkflowBySlug_inStep hdatabase hm hmirrors now now' slug
  | listEnabled triggerType =>
      exact listEnabled_inStep hdatabase hm hmirrors now now' triggerType
  | touchLastRun id instant =>
      exact touchLastRun_inStep hdatabase hm hmirrors now now' id instant
  | createExecution new =>
      exact createExecution_inStep hdatabase hm hmirrors now now' hρ hpermitted (hfresh fresh rfl)
  | finishExecution id f =>
      exact finishExecution_inStep hdatabase hm hmirrors now now' hρ id hpermitted
  | getExecution id => exact getExecution_inStep hdatabase hm hmirrors now now' hρ id
  | findPrimitive id => exact hpermitted.elim
  | findPrimitiveByName name => exact hpermitted.elim
  | insertAudit record => exact hpermitted.elim

end

end

/-! ### Runs -/

section

variable {D : Type} {database : Statement → D → Except String Reply × D} {tables : D → Tables}

/-- Whether something holds at each question that both stores are asked, one after the other. -/
def Along (ρ : Uuid → Uuid) (database : Statement → D → Except String Reply × D)
    (P : Ask → Memory → D → Prop) : List Ask → Memory → D → Prop
  | [], _, _ => True
  | a :: asks, m, d =>
    P a m d ∧ Along ρ database P asks (a.inMemory m).2 (a.inDatabase ρ database d).2

/-- The executions that a store says it ended, one for each order that it says so of. -/
def endings {S : Type} (answer : (a : Ask) → S → Except StoreError a.Answer × S) :
    List Ask → S → List Uuid
  | [], _ => []
  | a :: asks, s => (a.call.ended? (answer a s).1).toList ++ endings answer asks (answer a s).2

theorem Agree.ended?_eq {call : StoreCall β} {r r' : Except StoreError β} (h : Agree ρ call r r') :
    call.ended? r' = call.ended? r := by
  cases h with
  | notFound => rfl
  | ok h =>
      cases call with
      | finishExecution id f =>
          cases h
          rfl
      | _ => rfl

/-- Both stores answer a run of questions alike, and no execution is ended that had stopped. -/
theorem inSteps (hdatabase : Obeys database tables) (hρ : Function.Injective ρ) {asks : List Ask}
    {m : Memory} {d : D} (hm : m.Regular) (hmirrors : Mirrors ρ m (tables d))
    (hpermitted : ∀ a ∈ asks, a.call.Permitted (m.workflows.map WorkflowRow.id))
    (hfresh : (m.executions.map ExecutionRow.id ++ asks.filterMap Ask.created?).Nodup) :
    Along ρ database
        (fun a m d => InStep ρ tables a.call a.fresh m d (a.inMemory m) (a.inDatabase ρ database d))
        asks m d ∧
      (endings Ask.inMemory asks m).Nodup ∧
      (∀ id ∈ endings Ask.inMemory asks m, ¬ m.Stopped id) ∧
      endings (Ask.inDatabase ρ database) asks d = endings Ask.inMemory asks m := by
  induction asks generalizing m d with
  | nil => exact ⟨trivial, List.nodup_nil, (fun _ h => nomatch h), rfl⟩
  | cons a asks ih =>
      have hsplit : (a :: asks).filterMap Ask.created? =
          a.created?.toList ++ asks.filterMap Ask.created? := by
        rw [List.filterMap_cons]
        cases a.created? <;> rfl
      rw [hsplit, ← List.append_assoc] at hfresh
      have hnew : ∀ id ∈ a.created?, id ∉ m.executions.map ExecutionRow.id := fun id hid hmem =>
        (List.nodup_append.mp (List.nodup_append.mp hfresh).1).2.2 id hmem id
          (Option.mem_toList.mpr hid) rfl
      have hstep := inStep hdatabase hm hmirrors hρ (hpermitted a List.mem_cons_self) hnew
      have hfresh' : ((a.inMemory m).2.executions.map ExecutionRow.id ++
          asks.filterMap Ask.created?).Nodup := by
        rw [hstep.executionIds]
        exact hfresh
      obtain ⟨halong, hnodup, hstopped, hsame⟩ := ih hstep.regular hstep.mirrors
        (fun b hb => hstep.ids ▸ hpermitted b (List.mem_cons_of_mem a hb)) hfresh'
      refine ⟨⟨hstep, halong⟩, ?_, ?_, ?_⟩
      · rw [endings]
        refine List.nodup_append.mpr ⟨Option.toList_nodup _, hnodup, fun x hx y hy => ?_⟩
        rintro rfl
        exact hstopped x hy (hstep.ended x (Option.mem_toList.mp hx)).2
      · intro id hid
        rw [endings, List.mem_append, Option.mem_toList] at hid
        rcases hid with hid | hid
        · exact (hstep.ended id hid).1
        · exact fun h => hstopped id hid (hstep.stopped id h)
      · rw [endings, endings, hsame, hstep.agree.ended?_eq]

theorem Along.imp {P Q : Ask → Memory → D → Prop} (hPQ : ∀ a m d, P a m d → Q a m d)
    {asks : List Ask} {m : Memory} {d : D} (h : Along ρ database P asks m d) :
    Along ρ database Q asks m d := by
  induction asks generalizing m d with
  | nil => trivial
  | cons a asks ih => exact ⟨hPQ a m d h.1, ih h.2⟩

/-- A store in a database that obeys and a store in memory start with the same workflows, in the
order in which they were created, and without executions.  Whatever they are asked, their answers
are the same, up to the identifiers that they make up and what clocks say; where they have none,
both say that nothing was found.  An order to end an execution that comes to nothing changes
nothing, and no execution is ended twice. -/
theorem stores_agree (hdatabase : Obeys database tables) (hρ : Function.Injective ρ)
    {ws : List WorkflowRow} (hids : (ws.map WorkflowRow.id).Nodup)
    (hslugs : (ws.map WorkflowRow.slug).Nodup)
    (hcreated : ws.Pairwise fun a b =>
      (storedInstant a.createdAt).inNanos < (storedInstant b.createdAt).inNanos)
    {m : Memory} (hm : m.workflows = ws ∧ m.executions = []) {d : D}
    (hworkflows : tables d "workflows" = (ws.map WorkflowRow.stored).map WorkflowRow.cells)
    (hexecutions : tables d "workflow_executions" = [])
    {asks : List Ask} (hpermitted : ∀ a ∈ asks, a.call.Permitted (ws.map WorkflowRow.id))
    (hfresh : (asks.filterMap Ask.created?).Nodup) :
    Along ρ database
        (fun a m d => Agree ρ a.call (a.inMemory m).1 (a.inDatabase ρ database d).1 ∧
          (a.call.Declined (a.inMemory m).1 →
            (a.inMemory m).2 = m ∧ tables (a.inDatabase ρ database d).2 = tables d))
        asks m d ∧
      (endings Ask.inMemory asks m).Nodup ∧
      endings (Ask.inDatabase ρ database) asks d = endings Ask.inMemory asks m := by
  obtain ⟨rfl, hnone⟩ := hm
  have hregular : m.Regular :=
    { ids := hids
      slugs := hslugs
      created := hcreated
      executionIds := by rw [hnone]; exact List.nodup_nil
      statuses := by rw [hnone]; exact fun _ h => nomatch h
      known := by rw [hnone]; exact fun _ h => nomatch h }
  have hmirrors : Mirrors ρ m (tables d) :=
    ⟨hworkflows, [], by rw [hnone]; exact .nil, hexecutions⟩
  have hfresh' : (m.executions.map ExecutionRow.id ++ asks.filterMap Ask.created?).Nodup := by
    rw [hnone]
    exact hfresh
  obtain ⟨halong, hnodup, -, hsame⟩ := inSteps hdatabase hρ hregular hmirrors hpermitted hfresh'
  exact ⟨halong.imp fun a m d h => ⟨h.agree, h.declined⟩, hnodup, hsame⟩

end

def dailyWorkflow : WorkflowRow where
  id := ⟨1⟩
  name := "Daily"
  slug := "daily"
  definition := .obj []
  enabled := true
  triggerType := "schedule"
  lastRunAt := none
  createdAt := ⟨1700000000, 123456789⟩

def dailyMemory : Memory := { Memory.empty with workflows := [dailyWorkflow] }

def dailyTables : Tables := fun name =>
  if name = "workflows" then [dailyWorkflow.stored.cells] else []

/-- An execution is created, ended, ended again and looked for, and the run is stamped, on a
workflow that is there and on one that is not. -/
def dailyRun : List Ask :=
  let now : Time.Instant := ⟨1700000100, 987654321⟩
  let later : Time.Instant := ⟨1700000200, 1⟩
  let done : Finish := ⟨.completed, some .null, none⟩
  [⟨.listEnabled "schedule", ⟨0⟩, now, later⟩,
    ⟨.createExecution ⟨⟨1⟩, "schedule", none, none, .null⟩, ⟨7⟩, now, later⟩,
    ⟨.finishExecution ⟨7⟩ done, ⟨0⟩, now, later⟩, ⟨.finishExecution ⟨7⟩ done, ⟨0⟩, now, later⟩,
    ⟨.getExecution ⟨7⟩, ⟨0⟩, now, later⟩, ⟨.touchLastRun ⟨1⟩ now, ⟨0⟩, now, later⟩,
    ⟨.touchLastRun ⟨2⟩ now, ⟨0⟩, now, later⟩, ⟨.findWorkflowBySlug "daily", ⟨0⟩, now, later⟩]

theorem stores_agree_onDailyRun :
    Along (fun u => ⟨u.value + 100⟩) carryOut
        (fun a m tables =>
          Agree (fun u => ⟨u.value + 100⟩) a.call (a.inMemory m).1
              (a.inDatabase (fun u => ⟨u.value + 100⟩) carryOut tables).1 ∧
            (a.call.Declined (a.inMemory m).1 →
              (a.inMemory m).2 = m ∧
                id (a.inDatabase (fun u => ⟨u.value + 100⟩) carryOut tables).2 = id tables))
        dailyRun dailyMemory dailyTables ∧
      endings Ask.inMemory dailyRun dailyMemory = [⟨7⟩] ∧
      endings (Ask.inDatabase (fun u => ⟨u.value + 100⟩) carryOut) dailyRun dailyTables =
        [⟨7⟩] := by
  have hids : ([dailyWorkflow].map WorkflowRow.id).Nodup := List.nodup_singleton _
  have hshift : Function.Injective fun u : Uuid => (⟨u.value + 100⟩ : Uuid) := by
    rintro ⟨n⟩ ⟨n'⟩ h
    simpa using h
  have hm : dailyMemory.workflows = [dailyWorkflow] ∧ dailyMemory.executions = [] := ⟨rfl, rfl⟩
  have hrows : id dailyTables "workflows" =
      ([dailyWorkflow].map WorkflowRow.stored).map WorkflowRow.cells := rfl
  have hpermitted : ∀ a ∈ dailyRun, a.call.Permitted ([dailyWorkflow].map WorkflowRow.id) := by
    simp [dailyRun, StoreCall.Permitted, dailyWorkflow, ExecutionStatus.isTerminal]
  have hfresh : (dailyRun.filterMap Ask.created?).Nodup := by decide
  obtain ⟨halong, -, hsame⟩ := stores_agree obeys_carryOut hshift hids (List.nodup_singleton _)
    (List.pairwise_singleton _ _) hm hrows rfl hpermitted hfresh
  have hended : endings Ask.inMemory dailyRun dailyMemory = [⟨7⟩] := by decide
  exact ⟨halong, hended, hsame.trans hended⟩

end Workflow
