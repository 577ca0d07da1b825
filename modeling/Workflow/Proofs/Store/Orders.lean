import Workflow.Proofs.Store.Rows

/-!
# What comes of an order to a database

What a store in a database answers and what it leaves in the tables, said in rows of workflows and
of executions.
-/

namespace Workflow

/-- Whether an execution is the one of an identifier, and is running. -/
def ExecutionRow.isRunningOf (e : ExecutionRow) (id : Uuid) : Bool :=
  e.id = id && e.status = ExecutionStatus.running.name

namespace Sql

variable {D : Type} {database : Statement → D → Except String Reply × D} {tables : D → Tables}
  {d : D} {id : Uuid}

theorem Written.eq_of_accepts {s : Schema} {t t' : Tables} {rows : List ResultRow} {reply : Reply}
    {r : Except String Reply} (h : Written s t rows reply r t') (haccepts : s.Accepts t rows) :
    r = .ok reply ∧ t' = Function.update t s.table.name rows := by
  cases h with
  | made _ => exact ⟨rfl, rfl⟩
  | refused hnot _ => exact absurd haccepts hnot

/-- A question by a column that no two rows share is answered by the row that is there. -/
theorem Obeys.find {α κ : Type} [DecidableEq κ] {key : α → κ} {cells : α → ResultRow}
    {read : ResultRow → Except DatabaseError α} {table : Table} {column : String} {value : Cell}
    {items : List α} {k : κ} (h : Obeys database tables)
    (hsent : Sent (.select table [.equals column value] none))
    (hread : ∀ a, read ((cells a).project table.columnNames) = .ok a)
    (hitems : tables d table.name = items.map cells) (hnodup : (items.map key).Nodup)
    (htest : ∀ a, ((cells a).cell column).same value = decide (key a = k)) :
    tables (database (.select table [.equals column value] none) d).2 = tables d ∧
      accepted (database (.select table [.equals column value] none) d).1 >>= firstRow read =
        .ok (items.find? fun a => key a = k) := by
  obtain ⟨htables, rows, hrows, -, hreply⟩ := h.select hsent
  refine ⟨htables, ?_⟩
  have hpasses : (fun a => (cells a).passes ([Test.equals column value].map Test.cell)) =
      fun a => decide (key a = k) := by
    funext a
    simp [ResultRow.passes, Test.cell, htest]
  have hfilter : (items.map cells).filter
        (·.passes ([Test.equals column value].map Test.cell)) =
      (items.find? fun a => key a = k).toList.map cells := by
    rw [List.filter_map, ← Memory.filter_eq_toList_find? hnodup k]
    exact congrArg (fun p => (items.filter p).map cells) hpasses
  rw [hitems, hfilter] at hrows
  rw [hreply]
  exact firstRow_of_perm hread hrows

/-- An order for changes makes them in the items for which a test holds. -/
theorem Obeys.change {α : Type} {cells : α → ResultRow} {p : α → Bool} {g : α → α}
    {items : List α} {table : Table} {s : Schema} {changes : List (String × Cell)}
    {tests : List Test} (h : Obeys database tables) (hsent : Sent (.update table changes tests))
    (hs : Schema.ofName? table.name = some s)
    (hitems : tables d table.name = items.map cells)
    (hpasses : ∀ a, (cells a).passes (tests.map Test.cell) = p a)
    (hchange : ∀ a, (cells a).change changes = cells (g a))
    (haccepts : s.Accepts (tables d) ((items.map fun a => if p a then g a else a).map cells)) :
    tables (database (.update table changes tests) d).2 =
        Function.update (tables d) s.table.name
          ((items.map fun a => if p a then g a else a).map cells) ∧
      (database (.update table changes tests) d).1 = .ok ⟨[], items.countP p⟩ := by
  have hwritten := h.update (d := d) hsent hs
  have hmap : (items.map cells).map (fun row =>
        if row.passes (tests.map Test.cell) then row.change changes else row) =
      (items.map fun a => if p a then g a else a).map cells := by
    rw [List.map_map, List.map_map]
    refine List.map_congr_left fun a _ => ?_
    rw [Function.comp_apply, Function.comp_apply, hpasses, hchange, apply_ite cells]
  have hcount : (items.map cells).countP (·.passes (tests.map Test.cell)) = items.countP p := by
    rw [List.countP_map]
    exact List.countP_congr fun a _ => by rw [Function.comp_apply, hpasses]
  rw [hitems, hmap, hcount] at hwritten
  exact (hwritten.eq_of_accepts haccepts).symm

section

variable {ws : List WorkflowRow} {es : List ExecutionRow} (fresh : Uuid) (now : Time.Instant)

/-- The listing has the enabled workflows of a kind in the order in which they were created. -/
theorem Obeys.listEnabled (h : Obeys database tables)
    (hrows : tables d "workflows" = ws.map WorkflowRow.cells) (triggerType : String) :
    tables (answer database fresh now (.listEnabled triggerType) d).2 = tables d ∧
      ∃ found : List WorkflowRow,
        found.Perm (ws.filter fun w => w.enabled && w.triggerType = triggerType) ∧
        (found.Pairwise fun a b => a.createdAt.inNanos ≤ b.createdAt.inNanos) ∧
        (answer database fresh now (.listEnabled triggerType) d).1 = .ok found := by
  obtain ⟨htables, rows, hfiltered, horder, hreply⟩ :=
    h.select (.inl ⟨_, fresh, now, .listEnabled triggerType, rfl⟩)
  have hpasses : (fun w : WorkflowRow => w.cells.passes
        ([Test.isTrue "enabled", Test.equals "trigger_type" (.text triggerType)].map Test.cell)) =
      fun w => w.enabled && w.triggerType = triggerType := by
    funext w
    have hall : w.cells.passes ([Test.isTrue "enabled",
          Test.equals "trigger_type" (.text triggerType)].map Test.cell) =
        (decide (w.enabled = true) && (decide (w.triggerType = triggerType) && true)) := rfl
    rw [hall, Bool.decide_eq_true, Bool.and_true]
  have hperm : rows.Perm
      ((ws.filter fun w => w.enabled && w.triggerType = triggerType).map WorkflowRow.cells) := by
    rw [← hpasses]
    have hname : tables d workflows.name = ws.map WorkflowRow.cells := hrows
    rw [hname, List.filter_map] at hfiltered
    exact hfiltered
  obtain ⟨found, rfl, hfound⟩ := exists_of_perm readWorkflow_cells hperm
  refine ⟨htables, found, hfound, ?_, ?_⟩
  · refine (List.pairwise_map.mp (horder "created_at" rfl)).imp fun hle => ?_
    rcases Prod.Lex.toLex_le_toLex.mp (of_decide_eq_true hle) with hlt | ⟨-, hle⟩
    · exact absurd hlt (lt_irrefl _)
    · exact hle
  · have hanswer : (answer database fresh now (.listEnabled triggerType) d).1 =
        accepted (database (statement fresh now (.listEnabled triggerType)) d).1 >>=
          readReply (.listEnabled triggerType) := rfl
    rw [hanswer, statement, hreply]
    exact congrArg (Except.mapError StoreError.database) (mapM_read readWorkflow_cells found)

/-- A workflow that was put there stands after those that are there. -/
theorem Obeys.insertWorkflow (h : Obeys database tables)
    (hrows : tables d "workflows" = ws.map WorkflowRow.cells) {row : WorkflowRow} {reply : Reply}
    (hreply : (database (insertWorkflow row) d).1 = .ok reply) :
    tables (database (insertWorkflow row) d).2 "workflows" =
      (ws ++ [row.stored]).map WorkflowRow.cells := by
  have hrow : Schema.workflows.newRow? [("id", .uuid row.id), ("name", .text row.name),
      ("slug", .text row.slug), ("definition", .json row.definition),
      ("enabled", .bool row.enabled), ("trigger_type", .text row.triggerType),
      ("last_run_at", .ofOption .ofInstant row.lastRunAt),
      ("created_at", .ofInstant row.createdAt)] = some row.stored.cells := by
    obtain ⟨id, name, slug, definition, enabled, triggerType, lastRunAt, createdAt⟩ := row
    cases lastRunAt <;> rfl
  have hwritten := h.insert (d := d) (.inr ⟨row, rfl⟩) ofName?_workflows hrow
  rw [Sql.insertWorkflow] at hreply ⊢
  generalize (database _ d).1 = r at hreply hwritten
  generalize tables (database _ d).2 = t at hwritten ⊢
  subst hreply
  cases hwritten with
  | made _ =>
      have hname : tables d workflows.name = ws.map WorkflowRow.cells := hrows
      rw [hname, List.map_append]
      exact Function.update_self ..

theorem Obeys.createExecution (h : Obeys database tables)
    (hrows : tables d "workflow_executions" = es.map ExecutionRow.cells) (new : NewExecution)
    (haccepts : Schema.executions.Accepts (tables d)
      ((es ++ [new.toRow fresh (storedInstant now)]).map ExecutionRow.cells)) :
    tables (answer database fresh now (.createExecution new) d).2 =
        Function.update (tables d) "workflow_executions"
          ((es ++ [new.toRow fresh (storedInstant now)]).map ExecutionRow.cells) ∧
      (answer database fresh now (.createExecution new) d).1 =
        .ok (new.toRow fresh (storedInstant now)) := by
  have hrow : Schema.executions.newRow? [("id", .uuid fresh), ("workflow_id", .uuid new.workflowId),
      ("status", .text ExecutionStatus.running.name), ("triggered_by", .text new.triggeredBy),
      ("user_id", .ofOption .text new.userId), ("agent_id", .ofOption .text new.agentId),
      ("trigger_data", .json new.triggerData), ("started_at", .ofInstant now)] =
      some (new.toRow fresh (storedInstant now)).cells := rfl
  have hwritten := h.insert (d := d) (.inl ⟨_, fresh, now, .createExecution new, rfl⟩)
    ofName?_executions hrow
  have hrows' : tables d executions.name ++ [(new.toRow fresh (storedInstant now)).cells] =
      (es ++ [new.toRow fresh (storedInstant now)]).map ExecutionRow.cells := by
    rw [List.map_append, ← hrows]
    rfl
  rw [hrows'] at hwritten
  obtain ⟨hreply, htables⟩ := hwritten.eq_of_accepts haccepts
  refine ⟨htables, ?_⟩
  have hanswer : (answer database fresh now (.createExecution new) d).1 =
      accepted (database (insertExecution fresh now new) d).1 >>=
        readReply (.createExecution new) := rfl
  rw [hanswer, insertExecution, hreply]
  exact congrArg (Except.mapError StoreError.database) (readExecution_cells _)

theorem Obeys.finishExecution (h : Obeys database tables)
    (hrows : tables d "workflow_executions" = es.map ExecutionRow.cells)
    (hids : (es.map ExecutionRow.id).Nodup) (id : Uuid) (f : Finish)
    (haccepts : Schema.executions.Accepts (tables d) ((es.map fun e =>
      if e.isRunningOf id then e.finish f (storedInstant now) else e).map ExecutionRow.cells)) :
    tables (answer database fresh now (.finishExecution id f) d).2 =
        Function.update (tables d) "workflow_executions" ((es.map fun e =>
          if e.isRunningOf id then e.finish f (storedInstant now) else e).map
            ExecutionRow.cells) ∧
      (answer database fresh now (.finishExecution id f) d).1 =
        .ok (es.any fun e => e.isRunningOf id) := by
  have hpasses (e : ExecutionRow) : e.cells.passes
      ([Test.equals "id" (.uuid id), .isWord "status" ExecutionStatus.running.name].map
        Test.cell) = e.isRunningOf id := by
    have hall : e.cells.passes
        ([Test.equals "id" (.uuid id), .isWord "status" ExecutionStatus.running.name].map
          Test.cell) =
        (decide (e.id = id) && (decide (e.status = ExecutionStatus.running.name) && true)) := rfl
    rw [hall, Bool.and_true, ExecutionRow.isRunningOf]
  obtain ⟨htables, hreply⟩ := h.change (.inl ⟨_, fresh, now, .finishExecution id f, rfl⟩)
    ofName?_executions hrows hpasses (fun _ => rfl) haccepts
  refine ⟨htables, ?_⟩
  have hanswer : (answer database fresh now (.finishExecution id f) d).1 =
      accepted (database (Sql.finishExecution id now f) d).1 >>=
        readReply (.finishExecution id f) := rfl
  have hone : decide (es.countP (fun e => e.isRunningOf id) = 1) =
      es.any fun e => e.isRunningOf id := by
    have hle := Memory.countP_le_one hids id fun e => e.status = ExecutionStatus.running.name
    rw [Bool.eq_iff_iff, decide_eq_true_iff, List.any_eq_true, ← List.countP_pos_iff]
    exact ⟨fun heq => heq ▸ Nat.one_pos, fun hpos => Nat.le_antisymm hle hpos⟩
  rw [hanswer, Sql.finishExecution, hreply, ← hone]
  rfl

theorem Obeys.touchLastRun (h : Obeys database tables)
    (hrows : tables d "workflows" = ws.map WorkflowRow.cells)
    (id : Uuid) (instant : Time.Instant)
    (haccepts : Schema.workflows.Accepts (tables d) ((ws.map fun w =>
      if w.id = id then { w with lastRunAt := some (storedInstant instant) } else w).map
        WorkflowRow.cells)) :
    tables (answer database fresh now (.touchLastRun id instant) d).2 =
        Function.update (tables d) "workflows" ((ws.map fun w =>
          if w.id = id then { w with lastRunAt := some (storedInstant instant) } else w).map
            WorkflowRow.cells) ∧
      (answer database fresh now (.touchLastRun id instant) d).1 =
        if ws.any fun w => w.id = id then .ok () else .error .notFound := by
  have hpasses (w : WorkflowRow) :
      w.cells.passes ([Test.equals "id" (.uuid id)].map Test.cell) = decide (w.id = id) := by
    have hall : w.cells.passes ([Test.equals "id" (.uuid id)].map Test.cell) =
        (decide (w.id = id) && true) := rfl
    rw [hall, Bool.and_true]
  obtain ⟨htables, hreply⟩ := h.change (.inl ⟨_, fresh, now, .touchLastRun id instant, rfl⟩)
    ofName?_workflows hrows hpasses (fun _ => rfl)
    (by simpa only [decide_eq_true_eq] using haccepts)
  simp only [decide_eq_true_eq] at htables
  refine ⟨htables, ?_⟩
  have hanswer : (answer database fresh now (.touchLastRun id instant) d).1 =
      accepted (database (statement fresh now (.touchLastRun id instant)) d).1 >>=
        readReply (.touchLastRun id instant) := rfl
  have hreached : (if ws.countP (fun w => w.id = id) = 0 then
        (.error .notFound : Except StoreError Unit) else .ok ()) =
      if ws.any fun w => w.id = id then .ok () else .error .notFound := by
    by_cases hany : (ws.any fun w => w.id = id) = true
    · have hpos := List.countP_pos_iff.mpr (List.any_eq_true.mp hany)
      rw [if_pos hany, if_neg (Nat.pos_iff_ne_zero.mp hpos)]
    · have hzero := List.countP_eq_zero.mpr fun w hw hid => hany (List.any_eq_true.mpr ⟨w, hw, hid⟩)
      rw [if_neg hany, if_pos hzero]
  rw [hanswer, statement, hreply, ← hreached]
  rfl

end

end Sql

end Workflow
