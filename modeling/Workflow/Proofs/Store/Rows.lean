import Mathlib.Data.List.Nodup
import Mathlib.Data.List.Perm.Basic
import Workflow.Proofs.Store.Memory
import Workflow.Proofs.Store.Reading

/-!
# Rows in a database

How rows stand in the tables of a database, what is read back of them, and when the tables can hold
them.
-/

namespace Workflow

open Sql

/-! ### Cells -/

/-- A workflow as a database keeps it, with instants in microseconds. -/
def WorkflowRow.stored (w : WorkflowRow) : WorkflowRow :=
  { w with lastRunAt := w.lastRunAt.map storedInstant, createdAt := storedInstant w.createdAt }

def WorkflowRow.cells (w : WorkflowRow) : ResultRow :=
  [("id", .uuid w.id), ("name", .text w.name), ("slug", .text w.slug),
    ("definition", .json w.definition), ("enabled", .bool w.enabled),
    ("trigger_type", .text w.triggerType), ("last_run_at", .ofOption .time w.lastRunAt),
    ("created_at", .time w.createdAt)]

def ExecutionRow.cells (e : ExecutionRow) : ResultRow :=
  [("id", .uuid e.id), ("workflow_id", .uuid e.workflowId), ("status", .text e.status),
    ("triggered_by", .text e.triggeredBy), ("user_id", .ofOption .text e.userId),
    ("agent_id", .ofOption .text e.agentId), ("trigger_data", .json e.triggerData),
    ("result", .ofOption .json e.result), ("error", .ofOption .text e.error),
    ("started_at", .time e.startedAt), ("finished_at", .ofOption .time e.finishedAt)]

theorem readWorkflow_cells (w : WorkflowRow) :
    readWorkflow (w.cells.project workflows.columnNames) = .ok w := by
  obtain ⟨id, name, slug, definition, enabled, triggerType, lastRunAt, createdAt⟩ := w
  cases lastRunAt <;> rfl

theorem readExecution_cells (e : ExecutionRow) :
    readExecution (e.cells.project executions.columnNames) = .ok e := by
  obtain ⟨id, workflowId, status, triggeredBy, userId, agentId, triggerData, result, error,
    startedAt, finishedAt⟩ := e
  cases userId <;> cases agentId <;> cases result <;> cases error <;> cases finishedAt <;> rfl

section

variable {α : Type} {cells : α → ResultRow} {read : ResultRow → Except DatabaseError α}
  {columns : List String} {rows : List ResultRow}

/-- The rows for at most one item, in whatever order, are read as that item. -/
theorem firstRow_of_perm (hread : ∀ a, read ((cells a).project columns) = .ok a)
    {found : Option α} (hrows : rows.Perm (found.toList.map cells)) :
    firstRow read ⟨rows.map (·.project columns), rows.length⟩ = .ok found := by
  cases found with
  | none =>
      have hnil : rows = [] := List.perm_nil.mp hrows
      rw [hnil]
      rfl
  | some a =>
      have hone : rows = [cells a] := List.perm_singleton.mp hrows
      rw [hone]
      simp only [firstRow, List.map_cons, hread]
      rfl

theorem mapM_read (hread : ∀ a, read ((cells a).project columns) = .ok a) (items : List α) :
    ((items.map cells).map (·.project columns)).mapM read = .ok items := by
  induction items with
  | nil => rfl
  | cons a items ih =>
      rw [List.map_cons, List.map_cons, List.mapM_cons, hread, ih]
      rfl

/-- The rows for items, in whatever order, are rows for the items in that order. -/
theorem exists_of_perm (hread : ∀ a, read ((cells a).project columns) = .ok a) {items : List α}
    (hrows : rows.Perm (items.map cells)) :
    ∃ found : List α, rows = found.map cells ∧ found.Perm items := by
  have hinjective : Function.Injective cells := by
    intro a b hab
    have ha := hread a
    rw [hab, hread b] at ha
    exact (Except.ok.inj ha).symm
  have hfound (rows : List ResultRow) (hmem : ∀ r ∈ rows, ∃ a, cells a = r) :
      ∃ found : List α, rows = found.map cells := by
    induction rows with
    | nil => exact ⟨[], rfl⟩
    | cons r rows ih =>
        obtain ⟨a, rfl⟩ := hmem r List.mem_cons_self
        obtain ⟨found, rfl⟩ := ih fun r hr => hmem r (List.mem_cons_of_mem _ hr)
        exact ⟨a :: found, rfl⟩
  obtain ⟨found, rfl⟩ := hfound rows fun r hr =>
    (List.mem_map.mp (hrows.subset hr)).imp fun _ h => h.2
  exact ⟨found, rfl, (List.map_perm_map_iff hinjective).mp hrows⟩

/-- Items that come in an ascending order come in one order only if no two are alike in it. -/
theorem eq_of_perm_of_pairwise {key : α → Int} {items found : List α} (hperm : found.Perm items)
    (hstrict : items.Pairwise fun a b => key a < key b)
    (horder : found.Pairwise fun a b => key a ≤ key b) : found = items := by
  have hnodup : (items.map key).Nodup := List.pairwise_map.mpr (hstrict.imp fun hlt => hlt.ne)
  refine hperm.eq_of_pairwise (fun a b ha hb hle hge => ?_) horder (hstrict.imp fun hlt => hlt.le)
  exact List.inj_on_of_nodup_map hnodup (hperm.subset ha) hb (le_antisymm hle hge)

end

/-! ### Tables -/

theorem ofName?_workflows : Schema.ofName? "workflows" = some Schema.workflows := rfl

theorem ofName?_executions : Schema.ofName? "workflow_executions" = some Schema.executions := rfl

section

variable {tables : Tables}

theorem WorkflowRow.fits (w : WorkflowRow) :
    ∀ column ∈ workflows.columns, (w.cells.cell column.1).fits column.2 = true := by
  obtain ⟨id, name, slug, definition, enabled, triggerType, lastRunAt, createdAt⟩ := w
  simp only [workflows, List.forall_mem_cons]
  cases lastRunAt <;> exact ⟨rfl, rfl, rfl, rfl, rfl, rfl, rfl, rfl, by simp⟩

theorem ExecutionRow.fits (e : ExecutionRow) :
    ∀ column ∈ executions.columns, (e.cells.cell column.1).fits column.2 = true := by
  obtain ⟨id, workflowId, status, triggeredBy, userId, agentId, triggerData, result, error,
    startedAt, finishedAt⟩ := e
  simp only [executions, List.forall_mem_cons]
  refine ⟨rfl, rfl, rfl, rfl, ?_, ?_, rfl, ?_, ?_, rfl, ?_, by simp⟩
  · cases userId <;> rfl
  · cases agentId <;> rfl
  · cases result <;> rfl
  · cases error <;> rfl
  · cases finishedAt <;> rfl

/-- Cells that hold different identifiers or texts are not the same. -/
theorem pairwise_not_same {α κ : Type} {rows : List α} {key : α → κ} (cells : α → ResultRow)
    (column : String) (hkey : (rows.map key).Nodup)
    (hsame : ∀ a b, ((cells a).cell column).same ((cells b).cell column) = true → key a = key b) :
    (rows.map cells).Pairwise fun a b => (a.cell column).same (b.cell column) = false := by
  rw [List.pairwise_map]
  refine (List.pairwise_map.mp hkey).imp fun hne => ?_
  rw [Bool.eq_false_iff]
  exact fun h => hne (hsame _ _ h)

theorem accepts_workflows {ws : List WorkflowRow} (hids : (ws.map WorkflowRow.id).Nodup)
    (hslugs : (ws.map WorkflowRow.slug).Nodup) :
    Schema.workflows.Accepts tables (ws.map WorkflowRow.cells) := by
  constructor
  · intro column hcolumn row hrow
    obtain ⟨w, -, rfl⟩ := List.mem_map.mp hrow
    exact w.fits column hcolumn
  · have hid := pairwise_not_same WorkflowRow.cells "id" hids
      fun _ _ h => of_decide_eq_true h
    have hslug := pairwise_not_same WorkflowRow.cells "slug" hslugs
      fun _ _ h => of_decide_eq_true h
    have hfilled : ∀ column ∈ ["id", "name", "slug", "definition", "enabled", "trigger_type",
        "created_at"], ∀ row ∈ ws.map WorkflowRow.cells, (row.cell column).isNull = false := by
      simp only [List.forall_mem_cons, List.forall_mem_map]
      exact ⟨fun _ _ => rfl, fun _ _ => rfl, fun _ _ => rfl, fun _ _ => rfl, fun _ _ => rfl,
        fun _ _ => rfl, fun _ _ => rfl, by simp⟩
    simp only [Schema.workflows, List.forall_mem_cons, List.not_mem_nil, false_implies,
      implies_true, and_true]
    exact ⟨⟨hfilled _ (by decide), hid⟩, hfilled _ (by decide), ⟨hfilled _ (by decide), hslug⟩,
      hfilled _ (by decide), ⟨hfilled _ (by decide), trivial⟩, ⟨hfilled _ (by decide), trivial⟩,
      hfilled _ (by decide), trivial⟩

theorem accepts_executions {es : List ExecutionRow} {ws : List WorkflowRow}
    (htables : tables "workflows" = ws.map WorkflowRow.cells)
    (hids : (es.map ExecutionRow.id).Nodup)
    (hstatuses : ∀ e ∈ es, ∃ status : ExecutionStatus, e.status = status.name)
    (hknown : ∀ e ∈ es, e.workflowId ∈ ws.map WorkflowRow.id) :
    Schema.executions.Accepts tables (es.map ExecutionRow.cells) := by
  constructor
  · intro column hcolumn row hrow
    obtain ⟨e, -, rfl⟩ := List.mem_map.mp hrow
    exact e.fits column hcolumn
  · have hid := pairwise_not_same ExecutionRow.cells "id" hids
      fun _ _ h => of_decide_eq_true h
    have hfilled : ∀ column ∈ ["id", "workflow_id", "status", "triggered_by", "trigger_data",
        "started_at"], ∀ row ∈ es.map ExecutionRow.cells, (row.cell column).isNull = false := by
      simp only [List.forall_mem_cons, List.forall_mem_map]
      exact ⟨fun _ _ => rfl, fun _ _ => rfl, fun _ _ => rfl, fun _ _ => rfl, fun _ _ => rfl,
        fun _ _ => rfl, by simp⟩
    have hstatus : (Constraint.among (ExecutionStatus.all.map ExecutionStatus.name)).Holds tables
        (es.map ExecutionRow.cells) "status" := by
      refine List.forall_mem_map.mpr fun e he => .inr ?_
      obtain ⟨status, hstatus⟩ := hstatuses e he
      refine ⟨status.name, List.mem_map_of_mem (by cases status <;> decide), ?_⟩
      exact decide_eq_true hstatus
    have hworkflow : (Constraint.refers "workflows" "id" "CASCADE").Holds tables
        (es.map ExecutionRow.cells) "workflow_id" := by
      refine List.forall_mem_map.mpr fun e he => .inr ?_
      obtain ⟨w, hw, hid⟩ := List.mem_map.mp (hknown e he)
      exact ⟨w.cells, htables ▸ List.mem_map_of_mem hw, decide_eq_true hid.symm⟩
    simp only [Schema.executions, List.forall_mem_cons, List.not_mem_nil, false_implies,
      implies_true, and_true]
    exact ⟨⟨hfilled _ (by decide), hid⟩, ⟨hfilled _ (by decide), hworkflow⟩,
      ⟨hfilled _ (by decide), hstatus⟩, hfilled _ (by decide),
      ⟨hfilled _ (by decide), trivial⟩, hfilled _ (by decide)⟩

end

end Workflow
