import Workflow.Proofs.Run.Audit
import Workflow.Proofs.Run.Report
import Workflow.Proofs.Run.Setting
import Workflow.Proofs.Run.Terminal
import Workflow.Proofs.Run.Upkeep

/-!
# What a run leaves alone

A run creates one execution, and from then on it writes only what belongs to it: the end of this
execution, the last run of its workflow, and records of the primitives of its nodes.  A request to
cancel the execution writes no more than that, and a handler that does not call the store writes
nothing.  So whatever the order of their steps, and however the run ends, all else in the store is
after the run what it was before.
-/

namespace Workflow

open Proc

variable {H α β : Type} {engine : Engine H} {d : Definition} {request : RunRequest} {r : Role}
  {s s' s₀ : Scene} {id wid : Uuid} {nodes : List Node} {row : ExecutionRow} {m m' : Memory}

/-! ### Calls -/

/-- A call that does not go to the store. -/
def Call.SparesStore : Call H β → Prop
  | .store _ => False
  | _ => True

/-- A registry whose handlers never call the store, whatever they are given. -/
def Registry.SparesStore (registry : Registry H) : Prop :=
  ∀ name version handler, registry.find? name version = some handler →
    ∀ context input, (handler context input).MakesOnly fun _ c => c.SparesStore

/-- A call to the store that writes nothing but what belongs to an execution of a workflow. -/
def StoreCall.KeepsTo (id wid : Uuid) (nodes : List Node) : StoreCall β → Prop
  | .createExecution _ => False
  | .finishExecution x _ => x = id
  | .touchLastRun x _ => x = wid
  | .insertAudit record => record.IsOf id wid nodes
  | _ => True

/-- A call by which the store is made to write nothing but what belongs to an execution. -/
def Call.KeepsTo (id wid : Uuid) (nodes : List Node) : Call H β → Prop
  | .store c => c.KeepsTo id wid nodes
  | _ => True

theorem Call.SparesStore.keepsTo {c : Call H β} (h : c.SparesStore) : c.KeepsTo id wid nodes := by
  cases c with
  | store c => exact h.elim
  | _ => trivial

theorem Call.Quiet.keepsTo {c : Call H β} (h : c.Quiet id wid nodes) : c.KeepsTo id wid nodes := by
  cases c with
  | store c =>
      have hnote := h.unnoted (.error .notFound)
      cases c with
      | insertAudit record => exact h.recorded record rfl
      | createExecution | finishExecution | touchLastRun => cases hnote
      | _ => trivial
  | _ => trivial

theorem Call.OfRun.keepsTo {c : Call H β} (h : c.OfRun id wid) : c.KeepsTo id wid nodes := by
  cases h with
  | finished | stamped => exact rfl
  | _ => trivial

theorem Call.KeepsTo.createsNone {c : Call H β} (h : c.KeepsTo id wid nodes) (reply : β) :
    (c.note? reply).bind Note.created? = none := by
  cases c with
  | store c =>
      cases c with
      | createExecution => exact h.elim
      | _ => rfl
  | here c => cases c <;> rfl
  | _ => rfl

/-- Everybody keeps to one execution. -/
def confined (H : Type) (id wid : Uuid) (nodes : List Node) : Rules (Call H) Scene :=
  ⟨Scene.Answers, fun _ _ c _ => c.KeepsTo id wid nodes⟩

/-! ### The store -/

/-- The row of an execution, whatever became of it since it was created as another. -/
structure ExecutionRow.Continues (created row : ExecutionRow) : Prop where
  id : row.id = created.id
  workflowId : row.workflowId = created.workflowId
  triggeredBy : row.triggeredBy = created.triggeredBy
  userId : row.userId = created.userId
  agentId : row.agentId = created.agentId
  triggerData : row.triggerData = created.triggerData
  startedAt : row.startedAt = created.startedAt

/-- The row of a workflow is as it was, but for its last run if it is a certain workflow. -/
def WorkflowRow.Restamped (wid : Uuid) (before row : WorkflowRow) : Prop :=
  row = before ∨ before.id = wid ∧ ∃ instant, row = { before with lastRunAt := some instant }

/-- A store after some of a run of a workflow, compared with the store before: the execution of the
run is in it, and nothing else has changed but what belongs to this one. -/
structure Framed (d : Definition) (created : ExecutionRow) (before after : Memory) : Prop where
  fresh : ∀ row ∈ before.executions, row.id ≠ created.id
  executions : ∃ row, after.executions = before.executions ++ [row] ∧ created.Continues row
  workflows : List.Forall₂ (WorkflowRow.Restamped d.id) before.workflows after.workflows
  primitives : after.primitives = before.primitives
  audits : ∃ records, after.audits = before.audits ++ records ∧
    ∀ audit ∈ records, audit.toNewAudit.IsOf created.id d.id d.nodes

theorem WorkflowRow.Restamped.stamped {before row : WorkflowRow} (h : before.Restamped wid row)
    (hid : row.id = wid) (instant : Time.Instant) :
    before.Restamped wid { row with lastRunAt := some instant } := by
  rcases h with rfl | ⟨hwid, _, rfl⟩
  · exact .inr ⟨hid, instant, rfl⟩
  · exact .inr ⟨hwid, instant, rfl⟩

namespace Memory

theorem modifyFirst_append {α : Type} {p : α → Bool} {f : α → α} {l : List α}
    (h : ∀ a ∈ l, p a = false) (l' : List α) :
    modifyFirst p f (l ++ l') = l ++ modifyFirst p f l' := by
  induction l with
  | nil => rfl
  | cons a rest ih =>
      have ha : p a = false := h a List.mem_cons_self
      have hrest := ih fun b hb => h b (List.mem_cons_of_mem a hb)
      rw [List.cons_append, modifyFirst, if_neg (by simp [ha]), hrest, List.cons_append]

theorem forall₂_modifyFirst {α : Type} {P : α → α → Prop} {p : α → Bool} {f : α → α}
    {l l' : List α} (hf : ∀ a b, P a b → p b = true → P a (f b)) (h : List.Forall₂ P l l') :
    List.Forall₂ P l (modifyFirst p f l') := by
  induction h with
  | nil => exact .nil
  | @cons a b l l' hab hrest ih =>
      rw [modifyFirst]
      split
      · next hb => exact .cons (hf a b hab hb) hrest
      · exact .cons hab ih

end Memory

namespace Framed

theorem created (hfresh : m.execution? row.id = none) : Framed d row m (m.addExecution row) := by
  constructor
  · intro e he heq
    have hnone := List.find?_eq_none.mp hfresh e he
    simp [heq] at hnone
  · exact ⟨row, rfl, ⟨rfl, rfl, rfl, rfl, rfl, rfl, rfl⟩⟩
  · exact List.forall₂_same.mpr fun _ _ => .inl rfl
  · rfl
  · exact ⟨[], (List.append_nil _).symm, by simp⟩

theorem ended (h : Framed d row m m') (f : Finish) (now : Time.Instant) :
    Framed d row m (m'.ended row.id f now) := by
  obtain ⟨last, hexecutions, hlast⟩ := h.executions
  have hothers : ∀ e ∈ m.executions, decide (e.id = row.id) = false :=
    fun e he => decide_eq_false (h.fresh e he)
  refine ⟨h.fresh, ⟨last.finish f now, ?_, ?_⟩, h.workflows, h.primitives, h.audits⟩
  · rw [Memory.ended, hexecutions, Memory.modifyFirst_append hothers, Memory.modifyFirst,
      if_pos (decide_eq_true hlast.id)]
  · exact ⟨hlast.id, hlast.workflowId, hlast.triggeredBy, hlast.userId, hlast.agentId,
      hlast.triggerData, hlast.startedAt⟩

theorem stamped (h : Framed d row m m') (instant : Time.Instant) :
    Framed d row m { m' with workflows := Memory.stamped m'.workflows d.id instant } := by
  refine ⟨h.fresh, h.executions, ?_, h.primitives, h.audits⟩
  refine Memory.forall₂_modifyFirst (fun before flow hflow hid => ?_) h.workflows
  exact hflow.stamped (of_decide_eq_true hid) instant

theorem audited (h : Framed d row m m') {audit : AuditRow}
    (haudit : audit.toNewAudit.IsOf row.id d.id d.nodes) :
    Framed d row m { m' with audits := m'.audits ++ [audit] } := by
  obtain ⟨records, haudits, hrecords⟩ := h.audits
  refine ⟨h.fresh, h.executions, h.workflows, h.primitives, records ++ [audit], ?_, ?_⟩
  · rw [haudits, List.append_assoc]
  · intro a ha
    rcases List.mem_append.mp ha with ha | ha
    · exact hrecords a ha
    · rw [List.mem_singleton.mp ha]
      exact haudit

/-- What the store answers to a call that keeps to the execution of a run leaves all else alone. -/
theorem answer {c : StoreCall β} (hc : c.KeepsTo row.id d.id d.nodes) (h : Framed d row m m')
    {fresh : Uuid} {now : Time.Instant} :
    Framed d row m (Memory.answer fresh now c m').2 := by
  cases c with
  | createExecution => exact hc.elim
  | finishExecution x f =>
      obtain rfl : x = row.id := hc
      rw [Memory.answer]
      cases hfinish : m'.finish row.id f now with
      | error e => exact h
      | ok p =>
          obtain ⟨applied, m''⟩ := p
          rcases Memory.finish_eq_ok hfinish with ⟨-, rfl, -⟩ | ⟨-, rfl, -⟩
          · exact h.ended f now
          · exact h
  | touchLastRun x instant =>
      obtain rfl : x = d.id := hc
      rw [Memory.answer, Memory.touch_eq]
      by_cases hw : (m'.workflow? d.id).isSome
      · rw [if_pos hw]
        exact h.stamped instant
      · rw [if_neg hw]
        exact h
  | insertAudit record => exact h.audited hc
  | findPrimitive | findPrimitiveByName =>
      exact ⟨h.fresh, h.executions, h.workflows, h.primitives, h.audits⟩
  | _ => exact h

/-- The step law: nobody who keeps to the execution of a run changes anything else. -/
theorem moves (h : Framed d row m s.memory)
    (hmoves : (confined H row.id d.id d.nodes).Moves r s s') : Framed d row m s'.memory := by
  obtain ⟨β, c, reply, hc, hanswer⟩ := hmoves
  change Scene.Answers r β c s reply s' at hanswer
  cases c with
  | store c =>
      obtain ⟨⟨fresh, now, -, hmemory⟩, -, -⟩ := hanswer
      have hafter : Framed d row m (Memory.answer fresh now c s.memory).2 := h.answer hc
      rwa [hmemory] at hafter
  | here c => rwa [hanswer.2.1]
  | clock | exchange | custom =>
      obtain rfl : s' = s := hanswer
      exact h

end Framed

/-! ### Runs -/

/-- A walk of a run keeps to its execution if the handlers spare the store. -/
theorem confined_ground {registry : Registry H} (hspares : registry.SparesStore) :
    Ground (confined H id wid nodes) registry id wid nodes (fun _ => True) fun _ => True where
  stable r _ := Rules.stable_true r
  told r _ := Rules.stable_true r
  quiet _ _ _ _ hc _ _ := ⟨hc.keepsTo, fun _ _ _ => ⟨trivial, fun _ => trivial⟩⟩
  poll _ _ _ _ := ⟨trivial, fun _ _ _ => ⟨trivial, fun _ => trivial, fun _ => trivial⟩⟩
  handler name version handler hfound context input s _ :=
    (hspares name version handler hfound context input).ensures (fun _ _ _ hc => hc.keepsTo) s

/-- Once it has created its execution, a run keeps to it. -/
theorem confined_upkeep {registry : Registry H} (hspares : registry.SparesStore) :
    Upkeep (confined H id wid nodes) registry id wid nodes fun _ => True where
  ground := confined_ground hspares
  call _ _ hc _ _ := ⟨hc.keepsTo, fun _ _ _ => trivial⟩

/-! ### Moments of a run -/

/-- The execution of a run is the one that its owner has created, and the store is framed by it. -/
structure Owns (d : Definition) (row : ExecutionRow) (m : Memory) (s : Scene) : Prop where
  created : s.log.createdBy .owner = [row]
  framed : Framed d row m s.memory

namespace Owns

theorem moves (h : Owns d row m s) (hmoves : (confined H row.id d.id d.nodes).Moves r s s') :
    Owns d row m s' := by
  refine ⟨?_, h.framed.moves hmoves⟩
  obtain ⟨β, c, reply, hc, hanswer⟩ := hmoves
  have hsame := Scene.Answers.createdBy_owner hanswer fun _ => hc.createsNone reply
  exact hsame.trans h.created

theorem eq_of_created (h : Owns d row m s) {row' : ExecutionRow} (hrow' : s.Created row') :
    row' = row := by
  have hmem : row' ∈ s.log.createdBy .owner :=
    List.mem_filterMap.mpr ⟨_, (Log.mem_notesOf _ _ _).mpr hrow', rfl⟩
  rw [h.created] at hmem
  exact List.mem_singleton.mp hmem

theorem opens_ensures (h : Owns d row m s) {q : Proc (Call H) (Except RunError Bool)}
    (hq : Opens s q) :
    q.Ensures (confined H row.id d.id d.nodes) .request (fun _ _ => True) (fun _ _ => True) s := by
  obtain ⟨row', hcreated, rfl⟩ := hq
  rw [h.eq_of_created hcreated]
  exact cancel_ensures_nothing row.id (fun _ => rfl) (fun _ => trivial) s

end Owns

/-- A run has not made its first call, or it has created an execution of its own as requested, and
all that goes on keeps to this one. -/
theorem owns_of_later (hspares : engine.adapter.registry.SparesStore) (hlog : s₀.log = [])
    {b : Runs H} (hb : (engine.initial d request s₀).Later b) :
    b = engine.initial d request s₀ ∨
      ∃ row, request.Creates d.id row ∧ Owns d row s₀.memory b.state ∧
        Pool.Sound (confined H row.id d.id d.nodes) (fun _ _ => True) (fun _ _ => False)
          (fun _ _ => True) b := by
  rcases Relation.ReflTransGen.cases_head hb with rfl | ⟨a, hfirst, hrest⟩
  · exact .inl rfl
  refine .inr ?_
  rcases Pool.move_of_ask hfirst with ⟨reply, s, hs, rfl⟩ | ⟨q, ⟨row, hrow, -⟩, -⟩
  · obtain ⟨⟨fresh, now, hfresh, hmemory⟩, -, hnote⟩ := hs
    simp only [Memory.answer, Prod.mk.injEq] at hmemory
    obtain ⟨rfl, hmemory⟩ := hmemory
    let row := (request.toNew d.id).toRow fresh now
    have howns : Owns d row s₀.memory s := by
      constructor
      · rw [hnote, hlog]
        exact Log.createdBy_single_self _ _
      · rw [← hmemory]
        exact .created hfresh.1
    have hsound : Pool.Sound (confined H row.id d.id d.nodes) (fun _ _ => True) (fun _ _ => False)
        (fun _ _ => True) (⟨engine.begun d request row, [], [], s⟩ : Runs H) :=
      ⟨(confined_upkeep hspares).begun request s trivial, by simp, by simp⟩
    obtain ⟨hsound', howns'⟩ := hsound.reaches howns hrest
      (fun _ _ _ hmoves h => h.moves hmoves) fun _ _ h hq => h.opens_ensures hq
    exact ⟨row, ⟨fresh, now, rfl⟩, howns', hsound'⟩
  · simp [Scene.Created, hlog] at hrow

/-- A run touches nothing but its own records, however it ends.  At every moment it has either not
begun, or created exactly one execution, as it was requested.  Then, compared with the store before
the run, the executions are those that were there before, each as it was, and the one of the run,
with all that it was created with; the primitives are as they were, and so are the workflows but for
the last run of this one; and the log of invocations is longer by records that all are of this
execution, this workflow and one of its nodes that run primitives.  The run does not panic, and when
it reports, it has begun. -/
theorem run_touches_its_own (hspares : engine.adapter.registry.SparesStore) (hlog : s₀.log = [])
    {b : Runs H} (hb : (engine.initial d request s₀).Later b) :
    (b = engine.initial d request s₀ ∨
      ∃ row, request.Creates d.id row ∧ Owns d row s₀.memory b.state) ∧
    (∀ message, b.main ≠ .panic message) ∧
    ∀ report, b.main = .done report →
      ∃ row, request.Creates d.id row ∧ Owns d row s₀.memory b.state := by
  rcases owns_of_later hspares hlog hb with rfl | ⟨row, hcreates, howns, hsound⟩
  · refine ⟨.inl rfl, fun message hpanic => ?_, fun report hdone => ?_⟩
    · cases hpanic
    · cases hdone
  · have howned : ∃ row, request.Creates d.id row ∧ Owns d row s₀.memory b.state :=
      ⟨row, hcreates, howns⟩
    refine ⟨.inr howned, fun message hpanic => ?_, fun _ _ => howned⟩
    have hmain := hsound.main
    rw [hpanic] at hmain
    exact hmain _ (.refl _)

/-- The run of a workflow that echoes, over a store with another workflow and an execution of this
one: it adds an execution and a record, and stamps its workflow. -/
theorem echoing_touches_its_own :
    let now : Time.Instant := ⟨0, 0⟩
    let flow : WorkflowRow := echoingWorkflow.toRow now
    let other : WorkflowRow := ⟨⟨7⟩, "other", "other", .null, true, "manual", none, now⟩
    let old : ExecutionRow := (RunRequest.toNew (.plain .manual .null) ⟨7⟩).toRow ⟨8⟩ now
    let m : Memory := ⟨[flow, other], [old], [], [], 0⟩
    ∃ (b : Runs Empty) (o : Outcome) (row last : ExecutionRow) (audit : AuditRow),
      (Engine.initial ⟨echoing, .standard⟩ echoingWorkflow (.plain .manual .null)
        ⟨m, echoingScene.here, []⟩).Later b ∧
      b.main = .done (.ok o) ∧ o.status = .completed ∧ Owns echoingWorkflow row m b.state ∧
      b.state.memory.executions = [old, last] ∧ last.state = .ok .completed ∧
      b.state.memory.workflows = [{ flow with lastRunAt := some now }, other] ∧
      b.state.memory.audits = [audit] := by
  intro now flow other old m
  let request : RunRequest := .plain .manual .null
  let row := (request.toNew ⟨0⟩).toRow ⟨0⟩ now
  let p : Primitive := ⟨⟨0⟩, "echo", "test", [], 1000, true, "1"⟩
  let site : CallSite := ⟨some row.id, some ⟨0⟩, some "step", some row.id⟩
  let new := Adapter.record p (.obj []) site now now (.ok (.obj []))
  let f : Finish := ⟨.completed, some (.obj [("start", .null), ("step", .obj [])]), none⟩
  -- The memory and the scene after each of the calls that change them.
  let m₁ := m.addExecution row
  let m₂ : Memory := { m₁ with audits := [⟨new, ⟨1⟩⟩] }
  let m₃ := m₂.ended row.id f now
  let m₄ : Memory := { m₃ with workflows := Memory.stamped m₃.workflows ⟨0⟩ now }
  let s₀ : Scene := ⟨m, echoingScene.here, []⟩
  let s₁ : Scene := ⟨m₁, s₀.here, [(.owner, .created (.ok row))]⟩
  let s₂ : Scene := ⟨m₁, ⟨[p], [row.id], []⟩, s₁.log ++ [(.owner, .registered row.id)]⟩
  let s₃ : Scene := { s₂ with log := s₂.log ++ [(.owner, .found row.id (.ok (some row)))] }
  let s₄ : Scene := { s₃ with memory := m₂ }
  let s₅ : Scene := ⟨m₃, s₄.here, s₄.log ++ [(.owner, .finished row.id f (.ok true))]⟩
  let s₆ : Scene := ⟨m₄, s₅.here, s₅.log ++ [(.owner, .touched ⟨0⟩ now)]⟩
  let s₇ : Scene := ⟨m₄, ⟨[p], [], []⟩, s₆.log ++ [(.owner, .unregistered row.id)]⟩
  have hasked : ∀ s : Scene, s.here.stopped = [] →
      Scene.Answers .owner _ (.here (.isStopped row.id) : Call Empty _) s false s := fun s hs =>
    ⟨by simp [Local.answer, hs], rfl, (List.append_nil _).symm⟩
  have hcreate : Scene.Answers .owner _
      (.store (.createExecution (request.toNew ⟨0⟩)) : Call Empty _) s₀ (.ok row) s₁ :=
    ⟨⟨⟨0⟩, now, ⟨rfl, by simp [s₀, echoingScene], by simp [s₀, echoingScene]⟩, rfl⟩, rfl, rfl⟩
  have hregister : Scene.Answers .owner _ (.here (.register row.id) : Call Empty _) s₁ () s₂ :=
    ⟨rfl, rfl, rfl⟩
  have hunused : ∀ s : Scene, s.memory.execution? ⟨1⟩ = none → s.here = s₂.here →
      s.Unused ⟨1⟩ := fun s hs hhere => ⟨hs, by simp [hhere, s₂, row], by simp [hhere, s₂]⟩
  have hfound : Scene.Answers .owner _ (.store (.getExecution row.id) : Call Empty _) s₂
      (.ok (some row)) s₃ := ⟨⟨⟨1⟩, now, hunused _ rfl rfl, rfl⟩, rfl, rfl⟩
  have hcached : Scene.Answers .owner _ (.here (.cachedByName "echo") : Call Empty _) s₃ (some p)
      s₃ := ⟨rfl, rfl, rfl⟩
  have hinsert : Scene.Answers .owner _ (.store (.insertAudit new) : Call Empty _) s₃
      (.ok ()) s₄ := ⟨⟨⟨1⟩, now, hunused _ rfl rfl, rfl⟩, rfl, rfl⟩
  have hfinish : Scene.Answers .owner _ (.store (.finishExecution row.id f) : Call Empty _) s₄
      (.ok true) s₅ := ⟨⟨⟨1⟩, now, hunused _ rfl rfl, rfl⟩, rfl, rfl⟩
  have htouch : Scene.Answers .owner _ (.store (.touchLastRun ⟨0⟩ now) : Call Empty _) s₅
      (.ok ()) s₆ := ⟨⟨⟨1⟩, now, hunused _ rfl rfl, rfl⟩, rfl, rfl⟩
  have hunregister : Scene.Answers .owner _ (.here (.unregister row.id) : Call Empty _) s₆ () s₇ :=
    ⟨rfl, rfl, rfl⟩
  have hstarted := (((Runs.Later.ofMain (a := Engine.initial ⟨echoing, .standard⟩ echoingWorkflow
    request s₀) .refl (.ask hcreate)).ofMain (.ask hregister)).ofMain .ownStarted).ofMain
      (.own (.attempt (.ask (b := now) rfl)))
  -- The trigger is visited, and then the step, for which the handler is invoked.
  have htrigger := (((hstarted.ofMain (.own (.attempt (.ask hfound)))).ofMain
    (.own (.attempt (.ask (b := now) rfl)))).ofMain (.own (.attempt (.ask (hasked _ rfl))))).ofMain
      (.own (.attempt (.ask (b := now) rfl)))
  have hstep := ((htrigger.ofMain (.own (.attempt (.ask (b := now) rfl)))).ofMain
    (.own (.attempt (.ask (hasked _ rfl))))).ofMain (.own (.attempt (.ask hcached)))
  have hinvoked := (((hstep.ofMain (.own (.attempt (.ask (b := now) rfl)))).ofMain
    (.own (.attempt .limitDone))).ofMain (.own (.attempt (.ask (b := now) rfl)))).ofMain
      (.own (.attempt (.ask hinsert)))
  -- The walk is over, and the execution is ended and stamped.
  have hwalked := (hinvoked.ofMain (.own (.attempt (.ask (b := now) rfl)))).ofMain
    (.own (.attempt (.ask hfinish)))
  have hstamped := ((hwalked.ofMain (.own (.attempt (.ask (b := now) rfl)))).ofMain
    (.own (.attempt (.ask htouch)))).ofMain (.own (.attempt (.ask (b := now) rfl)))
  have hover := ((hstamped.ofMain (.own .attemptDone)).ofMain
    (.own (.ask hunregister))).ofMain .ownDone
  have hspares : echoing.registry.SparesStore := by
    intro name version handler hfound context input
    rw [Registry.eq_of_find?_singleton hfound]
    trivial
  obtain ⟨-, -, hdone⟩ := run_touches_its_own hspares rfl hover
  obtain ⟨row', -, howns⟩ := hdone _ rfl
  exact ⟨_, _, row', row.finish f now, ⟨new, ⟨1⟩⟩, hover, rfl, rfl, howns, rfl, rfl, rfl, rfl⟩

end Workflow
