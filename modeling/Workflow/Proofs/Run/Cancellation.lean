import Workflow.Proofs.Run.Terminal

/-!
# A granted cancellation stops the run

A run looks at the row of its execution once, when it starts, and at its signal before each node.
Between the two there is no gap: a request that ended the execution before the row was read is seen
there, and one that did so later finds the run registered, so that its signal is seen by every visit
that begins after it was answered.
-/

namespace Workflow

open Proc

variable {H : Type} {engine : Engine H} {d : Definition} {request : RunRequest} {s s' s₀ : Scene}
  {row : ExecutionRow} {id wid : Uuid} {workflows₀ : List WorkflowRow} {r : Role}

/-! ### Visits -/

namespace Walk

variable {w : Walk H} {room : Nat} {nodeId : String} {c : Context} {node : Node}

/-- What comes of a visit that begins when its run has been told to stop: the node has failed. -/
def refused (node : Node) (c : Context) (startedAt : Time.Instant) : Visited :=
  ⟨[⟨node.id, node.type, .error RunError.cancelled.message, startedAt,
      elapsedMillis startedAt startedAt⟩],
    .error (failPath node.id .cancelled c)⟩

/-- A process that reads the clock, asks whether an execution was told to stop, and if that is so
goes on as is said here; no other call is made, and nothing is left behind. -/
def Refuses {α : Type} (id : Uuid) (q : Proc (Call H) α) (after : Time.Instant → Proc (Call H) α) :
    Prop :=
  ∀ r s left q' s', Step Scene.Answers r q s left q' s' → left = [] ∧ s' = s ∧
    ∃ startedAt, ∀ u left' q'' u', id ∈ u.here.stopped →
      Step Scene.Answers r q' u left' q'' u' → left' = [] ∧ u' = u ∧ q'' = after startedAt

/-- A visit without room, of a node that was not found or of one that its path has executed is over
at once: it makes no call and has no result. -/
theorem visit_over
    (h : room = 0 ∨ w.workflow.node? nodeId = none ∨ c.hasExecuted nodeId = true) :
    ∃ ending, w.visit room nodeId c = .done ⟨[], ending⟩ := by
  cases room with
  | zero => exact ⟨_, rfl⟩
  | succ room =>
      replace h := h.resolve_left (Nat.succ_ne_zero room)
      rw [visit]
      cases hnode : w.workflow.node? nodeId with
      | none => exact ⟨_, rfl⟩
      | some node =>
          rw [hnode] at h
          simp only [h.resolve_left (by simp), if_true]
          exact ⟨_, rfl⟩

theorem visit_begins (hnode : w.workflow.node? nodeId = some node)
    (hnew : c.hasExecuted nodeId = false) :
    w.visit (room + 1) nodeId c = .askClock fun startedAt =>
      .askHere (.isStopped c.executionId) fun stopped =>
        if stopped then .done (refused node c startedAt)
        else
          (w.execute (w.visit room) node c startedAt).bind fun executed =>
            .askClock fun finishedAt =>
              w.proceed (w.visit room) node c startedAt finishedAt executed := by
  simp only [visit, hnode, hnew, Bool.false_eq_true, if_false]
  rfl

/-- A visit that begins when the run has been told to stop fails without executing its node. -/
theorem visit_refuses {α : Type} {k : Visited → Proc (Call H) α}
    (hnode : w.workflow.node? nodeId = some node) (hnew : c.hasExecuted nodeId = false) :
    Refuses c.executionId ((w.visit (room + 1) nodeId c).bind k) fun startedAt =>
      k (refused node c startedAt) := by
  rw [visit_begins hnode hnew]
  intro r s left q' s' hclock
  cases hclock with
  | @ask _ _ _ _ _ _ _ startedAt hanswer =>
      refine ⟨rfl, hanswer, startedAt, fun u left' q'' u' hstopped hpoll => ?_⟩
      cases hpoll with
      | @ask _ _ _ _ _ _ _ stopped hanswer =>
          obtain ⟨rfl, hreply⟩ := Scene.answers_isStopped hanswer
          obtain rfl : stopped = true := hreply.mpr hstopped
          exact ⟨rfl, rfl, rfl⟩

end Walk

/-- A visit that begins in a process that keeps to the rules is one for its execution, and its run
was told to stop if anybody signalled so. -/
theorem Proc.Ensures.visit_begins {α : Type} {w : Walk H} {room : Nat} {nodeId : String}
    {c : Context} {node : Node} {k : Visited → Proc (Call H) α} {Q : α → Scene → Prop}
    {X : String → Scene → Prop} (hr : r.Walks) (hnode : w.workflow.node? nodeId = some node)
    (hnew : c.hasExecuted nodeId = false)
    (h : Ensures (conduct H id wid) r ((w.visit (room + 1) nodeId c).bind k) Q X s) :
    c.executionId = id ∧ (s.log.Signalled id → id ∈ s.here.stopped) := by
  rw [Walk.visit_begins hnode hnew] at h
  have hpoll := (h s (.refl s)).2 (⟨0, 0⟩ : Time.Instant) s rfl
  exact (hpoll s (.refl s)).1.2 c.executionId rfl hr

/-! ### Runs -/

theorem Standing.lasts_stopped : Lasts H row wid workflows₀ fun s => row.id ∈ s.here.stopped := by
  intro r s s' _ hs hstopped
  rcases moves_cases hs with halike | ⟨n, -, hnoted⟩
  · rw [halike.stopped]
    exact hstopped
  · exact hnoted.mem_stopped.mpr (.inl hstopped)

namespace Live

variable {a b : Runs H}

theorem cancelled_by (h : Live row wid workflows₀ a) {last : ExecutionRow}
    (hlast : a.state.memory.execution? row.id = some last) (hstate : last.state = .ok .cancelled) :
    ∃ r, (r = .guest ∨ r = .request) ∧
      (r, Note.finished row.id cancelFinish (.ok true)) ∈ a.state.log := by
  rcases h.consistent.state with ⟨-, hrow⟩ | ⟨r, f, row', hgrants, hrow, hf, -, -⟩
  · rw [hrow, Option.some.injEq] at hlast
    rw [← hlast, h.consistent.began] at hstate
    cases hstate
  · rw [hrow, Option.some.injEq] at hlast
    rw [hlast, hstate, Except.ok.injEq] at hf
    have hmem : (r, f) ∈ a.state.log.grants row.id := by simp [hgrants]
    rcases (h.consistent.granted _ hmem).2 with ⟨-, hne⟩ | ⟨hr, rfl⟩
    · exact absurd hf.symm hne
    · exact ⟨r, hr, (Log.mem_grants _ _).mp hmem⟩

theorem terminal_of_stopped (h : Live row wid workflows₀ a)
    (hstopped : row.id ∈ a.state.here.stopped) :
    ∃ last status, a.state.memory.execution? row.id = some last ∧ last.state = .ok status ∧
      status.isTerminal = true := by
  rcases h.consistent.state with ⟨hnone, -⟩ | ⟨r, f, last, -, hrow, hstate, -, hterm⟩
  · exact absurd hnone (h.consistent.stopped hstopped)
  · exact ⟨last, f.status, hrow, hstate, hterm⟩

end Live

/-- What holds of a run after a request to cancel its execution was answered by true, whether the
request came from outside or from a handler. -/
structure Cancelled (row : ExecutionRow) (a : Runs H) : Prop where
  granted : ∃ r, (r = .guest ∨ r = .request) ∧
    (r, Note.finished row.id cancelFinish (.ok true)) ∈ a.state.log
  signalled : a.state.log.Signalled row.id

namespace Cancelled

variable {a b : Runs H}

theorem of_answered (h : Live row wid workflows₀ a)
    (hgranted : .done (.ok true) ∈ a.requests) : Cancelled row a := by
  obtain ⟨applied, happlied, hsignalled, hgrant⟩ := h.sound.requests _ hgranted _ (.refl _)
  cases happlied
  exact ⟨⟨.request, .inr rfl, (Log.mem_grants _ _).mp (hgrant rfl)⟩, hsignalled⟩

theorem later (h : Cancelled row a) (hlive : Live row wid workflows₀ a) (hb : a.Later b) :
    Cancelled row b := by
  obtain ⟨⟨r, hr, hgranted⟩, r', hsignalled⟩ := h
  exact ⟨⟨r, hr, hlive.lasts hb (Standing.lasts_mem_log _) hgranted⟩,
    r', hlive.lasts hb (Standing.lasts_mem_log _) hsignalled⟩

theorem grants (h : Cancelled row a) (hlive : Live row wid workflows₀ a) :
    ∃ r, (r = .guest ∨ r = .request) ∧ a.state.log.grants row.id = [(r, cancelFinish)] := by
  obtain ⟨r, hr, hgranted⟩ := h.granted
  have hmem := (Log.mem_grants (e := (r, cancelFinish)) _ _).mpr hgranted
  rcases hlive.consistent.row with ⟨hnone, -⟩ | ⟨r', f, now, hgrants, -⟩
  · simp [hnone] at hmem
  · rw [hgrants, List.mem_singleton] at hmem
    exact ⟨r, hr, by rw [hgrants, hmem]⟩

theorem state (h : Cancelled row a) (hlive : Live row wid workflows₀ a) :
    ∃ last, a.state.memory.execution? row.id = some last ∧ last.state = .ok .cancelled := by
  obtain ⟨r, -, hgrants⟩ := h.grants hlive
  rcases hlive.consistent.state with ⟨hnone, -⟩ | ⟨r', f, last, hgrants', hlast, hstate, -, -⟩
  · simp [hgrants] at hnone
  · rw [hgrants, List.cons.injEq, Prod.mk.injEq] at hgrants'
    exact ⟨last, hlast, by rw [hstate, ← hgrants'.1.2]; rfl⟩

theorem stamps (h : Cancelled row a) (hlive : Live row wid workflows₀ a) :
    a.state.log.stamps = [] := by
  obtain ⟨r, hr, hgrants⟩ := h.grants hlive
  rw [List.eq_nil_iff_forall_not_mem]
  intro e he
  obtain ⟨-, f, hgrants', -⟩ := hlive.consistent.stamped e he
  rw [hgrants, List.cons.injEq, Prod.mk.injEq] at hgrants'
  obtain rfl : r = .owner := hgrants'.1.1
  rcases hr with hr | hr <;> cases hr

theorem outcome (h : Cancelled row a) (hlive : Live row wid workflows₀ a) {o : Outcome}
    (ho : a.main = .done (.ok o)) : o.status = .cancelled ∧ o.result = none := by
  have hdone := hlive.sound.main
  rw [ho] at hdone
  obtain ⟨l, -, hended⟩ := hdone _ (.refl _)
  obtain ⟨last, hlast, hstate⟩ := h.state hlive
  obtain ⟨-, hreport, -⟩ := hended.agrees hlast hstate
  cases hreport with
  | outcome _ _ hstatus hresult => exact ⟨hstatus, hresult (by decide)⟩

theorem visit (h : Cancelled row a) (hlive : Live row wid workflows₀ a) {α : Type} {w : Walk H}
    {room : Nat} {nodeId : String} {c : Context} {node : Node} {k : Visited → Proc (Call H) α}
    (hinside : Inside ((w.visit (room + 1) nodeId c).bind k) a.main)
    (hnode : w.workflow.node? nodeId = some node) (hnew : c.hasExecuted nodeId = false) :
    c.executionId = row.id ∧ (∀ b, a.Later b → row.id ∈ b.state.here.stopped) ∧
      Walk.Refuses row.id ((w.visit (room + 1) nodeId c).bind k) fun startedAt =>
        k (Walk.refused node c startedAt) := by
  obtain ⟨r, Q, X, hr, hensures⟩ := hinside.ensures hlive.sound.main
  obtain ⟨hid, hstopped⟩ := hensures.visit_begins hr hnode hnew
  refine ⟨hid, fun b hb => ?_, hid ▸ Walk.visit_refuses hnode hnew⟩
  exact hlive.lasts hb Standing.lasts_stopped (hstopped h.signalled)

end Cancelled

/-- A granted cancellation stops the run.  At every moment, a run that was told to stop belongs to
an execution whose row is terminal, and a row is cancelled only by somebody who cancels it.  Once a
request was answered by true, be it one of a handler, then at every later moment the row is
cancelled and no workflow is stamped; every visit that begins in the run fails without executing its
node, since its run was told to stop for good, while one that is skipped, as its path has executed
its node, is over at once and has no result; and an outcome of the run is cancelled, without a
result. -/
theorem granted_cancellation_stops (hclient : engine.adapter.registry.IsClient)
    (hlog : s₀.log = []) {a : Runs H} (ha : (engine.initial d request s₀).Later a)
    (hrow : a.state.Created row) :
    (row.id ∈ a.state.here.stopped →
      ∃ last status, a.state.memory.execution? row.id = some last ∧ last.state = .ok status ∧
        status.isTerminal = true) ∧
    (∀ last, a.state.memory.execution? row.id = some last → last.state = .ok .cancelled →
      ∃ r, (r = .guest ∨ r = .request) ∧
        (r, Note.finished row.id cancelFinish (.ok true)) ∈ a.state.log) ∧
    (.done (.ok true) ∈ a.requests ∨ Cancelled row a → ∀ b, a.Later b →
      (∃ last, b.state.memory.execution? row.id = some last ∧ last.state = .ok .cancelled) ∧
      b.state.log.stamps = [] ∧
      (∀ (α : Type) (room : Nat) (nodeId : String) (c : Context) (k : Visited → Proc (Call H) α),
        let w : Walk H := ⟨d, engine.adapter, engine.config.maxItems⟩
        Inside ((w.visit room nodeId c).bind k) b.main →
          ((room = 0 ∨ d.node? nodeId = none ∨ c.hasExecuted nodeId = true) ∧
            ∃ ending, w.visit room nodeId c = .done ⟨[], ending⟩) ∨
          ∃ node, d.node? nodeId = some node ∧ c.executionId = row.id ∧
            (∀ e, b.Later e → row.id ∈ e.state.here.stopped) ∧
            Walk.Refuses row.id ((w.visit room nodeId c).bind k) fun startedAt =>
              k (Walk.refused node c startedAt)) ∧
      ∀ o, b.main = .done (.ok o) → o.status = .cancelled ∧ o.result = none) := by
  obtain ⟨hlive, -⟩ := live_of_created hclient hlog ha hrow
  refine ⟨hlive.terminal_of_stopped, fun last => hlive.cancelled_by, fun hgranted b hb => ?_⟩
  have hlive' := hlive.later hb
  have hcancelled : Cancelled row b :=
    (hgranted.elim (Cancelled.of_answered hlive) fun h => h).later hlive hb
  refine ⟨hcancelled.state hlive', hcancelled.stamps hlive', ?_, fun o => hcancelled.outcome hlive'⟩
  intro α room nodeId c k w hinside
  by_cases hover : room = 0 ∨ d.node? nodeId = none ∨ c.hasExecuted nodeId = true
  · exact .inl ⟨hover, Walk.visit_over hover⟩
  · obtain ⟨hroom, hnode, hnew⟩ : room ≠ 0 ∧ d.node? nodeId ≠ none ∧
        c.hasExecuted nodeId = false := by simpa using hover
    obtain ⟨node, hnode⟩ := Option.ne_none_iff_exists'.mp hnode
    obtain ⟨room, rfl⟩ := Nat.exists_eq_succ_of_ne_zero hroom
    exact .inr ⟨node, hnode, hcancelled.visit hlive' hinside hnode hnew⟩

theorem Engine.walk_eq_visit (engine : Engine H) {d : Definition} {order : List String}
    (horder : d.order = .ok order) {trigger : Node}
    (htrigger : d.nodes.find? (fun n => n.type = .trigger) = some trigger) (c : Context)
    (startedAt : Time.Instant) :
    ∃ k, engine.walk d c startedAt = (Walk.visit ⟨d, engine.adapter, engine.config.maxItems⟩
      d.nodes.length trigger.id c).bind k := by
  simp only [walk, Walk.start, horder, htrigger]
  exact ⟨_, rfl⟩

/-- Whatever graph is walked, a request may come when the visit of its trigger begins. -/
theorem exists_cancelled_at_trigger (engine : Engine H) {d : Definition} {order : List String}
    (horder : d.order = .ok order) {trigger : Node}
    (htrigger : d.nodes.find? (fun n => n.type = .trigger) = some trigger) (request : RunRequest)
    (now : Time.Instant) :
    ∃ (row : ExecutionRow) (a : Runs H) (c : Context)
      (k : Visited → Proc (Call H) (Except RunError Outcome)),
      (engine.initial d request .empty).Later a ∧ a.state.Created row ∧
      .done (.ok true) ∈ a.requests ∧ c.executed = [] ∧
      Inside ((Walk.visit ⟨d, engine.adapter, engine.config.maxItems⟩ d.nodes.length
        trigger.id c).bind k) a.main := by
  let row := (request.toNew d.id).toRow ⟨0⟩ now
  -- The memory and the scene after each of the calls that are noted.
  let m₁ := Memory.empty.addExecution row
  let m₂ := m₁.ended row.id cancelFinish now
  let s₁ : Scene := ⟨m₁, .empty, [(.owner, .created (.ok row))]⟩
  let s₂ : Scene := ⟨m₁, ⟨[], [row.id], []⟩, s₁.log ++ [(.owner, .registered row.id)]⟩
  let s₃ : Scene := { s₂ with log := s₂.log ++ [(.owner, .found row.id (.ok (some row)))] }
  let s₄ : Scene := ⟨m₂, s₃.here,
    s₃.log ++ [(.request, .finished row.id cancelFinish (.ok true))]⟩
  let s₅ : Scene := ⟨m₂, ⟨[], [row.id], [row.id]⟩, s₄.log ++ [(.request, .signalled row.id)]⟩
  have hcreate : Scene.Answers .owner _
      (.store (.createExecution (request.toNew d.id)) : Call H _) .empty (.ok row) s₁ := by
    refine ⟨⟨⟨0⟩, now, ⟨rfl, ?_, ?_⟩, rfl⟩, rfl, rfl⟩ <;> simp [Scene.empty, Local.empty]
  have hregister : Scene.Answers .owner _ (.here (.register row.id) : Call H _) s₁ () s₂ :=
    ⟨rfl, rfl, rfl⟩
  have hfound : Scene.Answers .owner _ (.store (.getExecution row.id) : Call H _) s₂
      (.ok (some row)) s₃ := by
    refine ⟨⟨⟨1⟩, now, ⟨rfl, ?_, ?_⟩, rfl⟩, rfl, rfl⟩ <;> simp [s₂, row]
  have hfinish : Scene.Answers .request _
      (.store (.finishExecution row.id cancelFinish) : Call H _) s₃ (.ok true) s₄ := by
    refine ⟨⟨⟨1⟩, now, ⟨rfl, ?_, ?_⟩, rfl⟩, rfl, rfl⟩ <;> simp [s₃, s₂, row]
  have hsignal : Scene.Answers .request _ (.here (.signal row.id) : Call H _) s₄ () s₅ :=
    ⟨rfl, rfl, rfl⟩
  have hcreated : s₃.Created row := by simp [Scene.Created, s₃, s₂, s₁]
  have hstarted := (((Runs.Later.ofMain (a := engine.initial d request .empty) .refl
    (.ask hcreate)).ofMain (.ask hregister)).ofMain .ownStarted).ofMain
      (.own (.attempt (.ask (b := now) rfl)))
  have hread := hstarted.ofMain (.own (.attempt (.ask hfound)))
  have hcancelled := ((hread.ofOpened hcreated).ofRequest (.ask hfinish)).ofRequest (.ask hsignal)
  let c : Context :=
    .start row.id d.id row.startedAt request.payload (request.bindingsOver d)
  obtain ⟨k, hwalk⟩ := engine.walk_eq_visit horder htrigger c now
  refine ⟨row, _, c, k, hcancelled, ?_, List.mem_singleton_self _, rfl, .own (.attempt ?_)⟩
  · simp [Scene.Created, s₅, s₄, s₃, s₂, s₁]
  · have hrun : row.state = .ok .running := NewExecution.toRow_state _ _ _
    rw [← hwalk]
    simp only [hrun, ExecutionStatus.isTerminal, Bool.false_eq_true, if_false]
    exact .here _

/-- A run of one node whose execution is cancelled when the visit of the node begins. -/
theorem stops_at_trigger :
    let trigger : Node := ⟨"start", .trigger, none, .null⟩
    let d : Definition := .create ⟨0⟩ "single" .manual [trigger] []
    let engine : Engine Empty := .create [] [] .standard
    ∃ (row : ExecutionRow) (a : Runs Empty) (c : Context)
      (k : Visited → Proc (Call Empty) (Except RunError Outcome)),
      (engine.initial d (.plain .manual .null) .empty).Later a ∧
      .done (.ok true) ∈ a.requests ∧
      (∃ last, a.state.memory.execution? row.id = some last ∧ last.state = .ok .cancelled) ∧
      Walk.Refuses row.id ((Walk.visit ⟨d, engine.adapter, engine.config.maxItems⟩ 1
        "start" c).bind k) fun startedAt => k (Walk.refused trigger c startedAt) := by
  intro trigger d engine
  have horder : d.order = .ok ["start"] := rfl
  have htrigger : d.nodes.find? (fun n => n.type = .trigger) = some trigger := rfl
  have hfound : d.node? "start" = some trigger := rfl
  obtain ⟨row, a, c, k, ha, hrow, hgranted, hnew, hinside⟩ :=
    exists_cancelled_at_trigger engine horder htrigger (.plain .manual .null) ⟨0, 0⟩
  obtain ⟨-, -, hstops⟩ := granted_cancellation_stops Registry.isClient_nil rfl ha hrow
  obtain ⟨hstate, -, hvisits, -⟩ := hstops (.inl hgranted) a .refl
  refine ⟨row, a, c, k, ha, hgranted, hstate, ?_⟩
  rcases hvisits _ 1 "start" c k hinside with ⟨hover, -⟩ | ⟨node, hnode, -, -, hrefuses⟩
  · simp [Context.hasExecuted, hnew, hfound] at hover
  · obtain rfl : trigger = node := Option.some.inj (hfound.symm.trans hnode)
    exact hrefuses

end Workflow
