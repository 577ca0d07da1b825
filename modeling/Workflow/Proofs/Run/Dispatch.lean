import Workflow.Proofs.Process.Progress
import Workflow.Proofs.Process.Schedule
import Workflow.Proofs.Run.Report
import Workflow.Proofs.Run.Setting

/-!
# Workflows that are started together

An event and a schedule start workflows one after another, in the order in which they are listed.
Those that cannot be read are passed over, and a run that fails has an outcome like any other.  But
a run that is broken off by the panic of a handler has none: it ends the sequence, and the workflows
behind it are not started.
-/

namespace Workflow

open Proc

variable {H : Type} {r : Role} {s s' : Scene} {kind : TriggerKind} {chosen : Definition → Bool}
  {request : RunRequest} {ids : List Uuid} {rows : List ExecutionRow}

/-! ### Workflows that are chosen -/

/-- A choice of workflows that has nothing to do with when they were run before. -/
def IgnoresLastRun (chosen : Definition → Bool) : Prop :=
  ∀ d instant, chosen { d with lastRunAt := some instant } = chosen d

theorem Definition.ofRow_stamped (row : WorkflowRow) (stamp : Option Time.Instant) :
    ofRow { row with lastRunAt := stamp } =
      (ofRow row).map fun d => { d with lastRunAt := stamp } := by
  simp only [ofRow]
  cases Json.Decoder.ofValue Graph.decoder row.definition <;> rfl

namespace Memory

/-- The workflow of a row, if it is enabled, has the kind of trigger, can be read and is chosen. -/
def pick (kind : TriggerKind) (chosen : Definition → Bool) (row : WorkflowRow) : Option Uuid :=
  if row.enabled && row.triggerType = kind.name then
    ((Engine.readDefinition row).toOption.filter chosen).map Definition.id
  else none

/-- The workflows that are chosen among those that are listed for a kind of trigger, in their order.
-/
def picked (kind : TriggerKind) (chosen : Definition → Bool) (workflows : List WorkflowRow) :
    List Uuid :=
  workflows.filterMap (pick kind chosen)

theorem picked_eq (m : Memory) (kind : TriggerKind) (chosen : Definition → Bool) :
    (((m.enabled kind.name).filterMap fun row => (Engine.readDefinition row).toOption).filter
      chosen).map Definition.id = picked kind chosen m.workflows := by
  rw [enabled, picked]
  induction m.workflows with
  | nil => rfl
  | cons row rest ih =>
      rw [List.filterMap_cons, pick, ← ih]
      by_cases hlisted : (row.enabled && row.triggerType = kind.name) = true
      · rw [List.filter_cons, if_pos hlisted, if_pos hlisted, List.filterMap_cons]
        cases Engine.readDefinition row with
        | error e => rfl
        | ok d => by_cases hd : chosen d = true <;> simp [Except.toOption, Option.filter, hd]
      · rw [List.filter_cons, if_neg hlisted, if_neg hlisted]

theorem pick_stamped (h : IgnoresLastRun chosen) (row : WorkflowRow) (instant : Time.Instant) :
    pick kind chosen { row with lastRunAt := some instant } = pick kind chosen row := by
  have hread : Engine.readDefinition { row with lastRunAt := some instant } =
      (Engine.readDefinition row).map fun d => { d with lastRunAt := some instant } := by
    simp only [Engine.readDefinition, Definition.ofRow_stamped]
    cases Definition.ofRow row <;> rfl
  rw [pick, pick, hread]
  cases Engine.readDefinition row with
  | error e => rfl
  | ok d =>
      have hd := h d instant
      by_cases hchosen : chosen d = true <;>
        simp [Except.map, Except.toOption, Option.filter, hd, hchosen]

theorem picked_stamped (h : IgnoresLastRun chosen) (workflows : List WorkflowRow) (id : Uuid)
    (instant : Time.Instant) :
    picked kind chosen (stamped workflows id instant) = picked kind chosen workflows := by
  rw [picked, picked, stamped]
  induction workflows with
  | nil => rfl
  | cons row rest ih =>
      rw [modifyFirst]
      split
      · rw [List.filterMap_cons, pick_stamped h, ← List.filterMap_cons]
      · rw [List.filterMap_cons, ih, ← List.filterMap_cons]

end Memory

/-- Whatever is called, the same workflows are chosen. -/
theorem Scene.Answers.picked {β : Type} {c : Call H β} {reply : β}
    (h : Scene.Answers r β c s reply s') (hchosen : IgnoresLastRun chosen) :
    Memory.picked kind chosen s'.memory.workflows =
      Memory.picked kind chosen s.memory.workflows := by
  cases hn : c.note? reply with
  | none => rw [(h.alike hn).workflows]
  | some n =>
      rw [(h.noted hn).workflows]
      cases n with
      | touched id instant => exact Memory.picked_stamped hchosen _ id instant
      | _ => rfl

/-! ### One run after another -/

/-- What comes of runs of workflows one after another, with the executions that they create. -/
inductive Came (registry : Registry H) (request : RunRequest) :
    List Uuid → List ExecutionRow → Except RunError (List Outcome) → Prop where
  | done : Came registry request [] [] (.ok [])
  | went {id : Uuid} {ids : List Uuid} {row : ExecutionRow} {rows : List ExecutionRow} {o : Outcome}
      {report : Except RunError (List Outcome)} :
      request.Creates id row → o.executionId = row.id → Came registry request ids rows report →
        Came registry request (id :: ids) (row :: rows) (report.map (o :: ·))
  | aborted {id : Uuid} {row : ExecutionRow} (ids : List Uuid) {message : String} :
      request.Creates id row → registry.MayPanic message →
        Came registry request (id :: ids) [row] (.error (.aborted row.id (panicText message)))

namespace Came

variable {registry : Registry H} {report : Except RunError (List Outcome)}
  {outcomes : List Outcome} {e : RunError}

/-- Executions are created for the first of the workflows, one for each of them. -/
theorem creates (h : Came registry request ids rows report) :
    ∃ n, List.Forall₂ request.Creates (ids.take n) rows := by
  induction h with
  | done => exact ⟨0, .nil⟩
  | went hrow _ _ ih =>
      obtain ⟨n, hrows⟩ := ih
      exact ⟨n + 1, .cons hrow hrows⟩
  | aborted ids hrow _ => exact ⟨1, .cons hrow .nil⟩

theorem of_ok (h : Came registry request ids rows (.ok outcomes)) :
    List.Forall₂ request.Creates ids rows ∧
      List.Forall₂ (fun row (o : Outcome) => o.executionId = row.id) rows outcomes := by
  generalize hreport : (.ok outcomes : Except RunError (List Outcome)) = report at h
  induction h generalizing outcomes with
  | done =>
      obtain rfl := Except.ok.inj hreport
      exact ⟨.nil, .nil⟩
  | @went id ids row rows o report hrow ho _ ih =>
      cases report with
      | error e => cases hreport
      | ok more =>
          obtain rfl := Except.ok.inj hreport
          obtain ⟨hrows, hmore⟩ := ih rfl
          exact ⟨.cons hrow hrows, .cons ho hmore⟩
  | aborted => cases hreport

/-- Where the sequence ends early, its last run was broken off by the panic of a handler. -/
theorem of_error (h : Came registry request ids rows (.error e)) :
    ∃ before id after row message, ids = before ++ id :: after ∧
      List.Forall₂ request.Creates (before ++ [id]) rows ∧ rows.getLast? = some row ∧
      e = .aborted row.id (panicText message) ∧ registry.MayPanic message := by
  generalize hreport : (.error e : Except RunError (List Outcome)) = report at h
  induction h with
  | done => cases hreport
  | @went id ids row rows o report hrow ho _ ih =>
      cases report with
      | ok more => cases hreport
      | error e' =>
          obtain rfl : e = e' := Except.error.inj hreport
          obtain ⟨before, last, after, row', message, rfl, hrows, hlast, rfl, hpanic⟩ := ih rfl
          refine ⟨id :: before, last, after, row', message, rfl, .cons hrow hrows, ?_, rfl, hpanic⟩
          rw [List.getLast?_cons, hlast, Option.getD_some]
  | @aborted id row ids message hrow hpanic =>
      obtain rfl := Except.error.inj hreport
      exact ⟨[], id, ids, row, message, rfl, .cons hrow .nil, rfl, rfl, hpanic⟩

end Came

namespace Engine

variable {engine : Engine H} {X : String → Scene → Prop}

theorem created_done {α : Type} {a : α} {Q : α → Scene → Prop}
    (h : s.log.createdBy .owner = rows) (hQ : ∀ t : Scene, t.log.createdBy .owner = rows → Q a t) :
    Ensures (anyone H) .owner (.done a) Q X s :=
  fun _ ht => hQ _ ((stable_created (.inl rfl) rows).meanwhile ht h)

theorem runEach_comes (ds : List Definition) (outcomes : List Outcome)
    (h : s.log.createdBy .owner = rows) :
    Ensures (anyone H) .owner (engine.runEach request ds outcomes)
      (fun report t => ∃ more came, t.log.createdBy .owner = rows ++ more ∧
        Came engine.adapter.registry request (ds.map Definition.id) more came ∧
        report = came.map (outcomes ++ ·)) X s := by
  induction ds generalizing s rows outcomes with
  | nil =>
      refine created_done h fun t ht => ⟨[], .ok [], by rw [ht, List.append_nil], .done, ?_⟩
      exact congrArg Except.ok (List.append_nil outcomes).symm
  | cons d rest ih =>
      refine Ensures.andThen (run_reports request h) fun report t ht => ?_
      obtain ⟨row, hcreated, hrow, hreport⟩ := ht
      cases hreport with
      | @outcome o ho =>
          refine (ih (outcomes ++ [o]) hcreated).mono ?_ fun _ _ hx => hx
          rintro _ u ⟨more, came, hu, hcame, rfl⟩
          refine ⟨row :: more, came.map (o :: ·), by simpa using hu, .went hrow ho hcame, ?_⟩
          cases came <;> simp [Except.map]
      | aborted hpanic =>
          refine created_done hcreated fun u hu => ⟨[row], _, hu, .aborted _ hrow hpanic, rfl⟩

/-- The law of runs that are started together. -/
theorem runChosen_comes (hchosen : IgnoresLastRun chosen) (h : s.log.createdBy .owner = []) :
    Ensures (anyone H) .owner (engine.runChosen kind chosen request)
      (fun report t => Came engine.adapter.registry request
        (Memory.picked kind chosen s.memory.workflows) (t.log.createdBy .owner) report) X s := by
  have hstable : (anyone H).Stable .owner fun t =>
      Memory.picked kind chosen t.memory.workflows =
        Memory.picked kind chosen s.memory.workflows := by
    rintro other - t t' ⟨β, c, reply, -, hanswer⟩ ht
    exact (hanswer.picked hchosen).trans ht
  intro t ht
  have hcreated := (stable_created (.inl rfl) []).meanwhile ht h
  have hpicked := hstable.meanwhile ht rfl
  refine ⟨trivial, fun reply t' hanswer => ?_⟩
  rw [anyone_answers] at hanswer
  have hcreated' : t'.log.createdBy .owner = [] := by
    rw [hanswer.createdBy_owner fun _ => rfl, hcreated]
  obtain ⟨⟨_, _, -, hmemory⟩, -, -⟩ := hanswer
  simp only [Memory.answer, Prod.mk.injEq] at hmemory
  obtain ⟨rfl, -⟩ := hmemory
  refine (runEach_comes _ [] hcreated').mono ?_ fun _ _ hx => hx
  rintro _ u ⟨more, came, hu, hcame, rfl⟩
  rw [Memory.picked_eq, hpicked] at hcame
  rw [hu, List.nil_append]
  cases came <;> simpa [Except.map] using hcame

end Engine

/-! ### The executions in the store -/

/-- What of the row of an execution stays as it is. -/
def ExecutionRow.origin (row : ExecutionRow) : Uuid × Uuid := (row.id, row.workflowId)

/-- The executions in a store are those that were in it, and those that were created. -/
def Scene.Stores (m : Memory) (s : Scene) : Prop :=
  s.memory.executions.map ExecutionRow.origin =
    m.executions.map ExecutionRow.origin ++ s.log.created.map ExecutionRow.origin

theorem Memory.map_modifyFirst {α β : Type} {p : α → Bool} {f : α → α} {g : α → β}
    (hf : ∀ a, g (f a) = g a) (l : List α) : (modifyFirst p f l).map g = l.map g := by
  induction l with
  | nil => rfl
  | cons a rest ih =>
      rw [modifyFirst]
      split
      · rw [List.map_cons, hf, List.map_cons]
      · rw [List.map_cons, ih, List.map_cons]

/-- A call that is noted leaves the rows of a store where they are, but for one that it creates, and
what the end of an execution does not touch as it is. -/
theorem Scene.Noted.map_executions {γ : Type} {g : ExecutionRow → γ} {n : Note}
    (hg : ∀ (row : ExecutionRow) f now, g (row.finish f now) = g row) (h : s.Noted r n s') :
    s'.memory.executions.map g =
      s.memory.executions.map g ++ n.created?.toList.map g := by
  have hsame : s'.memory.executions = s.memory.executions → n.created? = none →
      s'.memory.executions.map g = s.memory.executions.map g ++ n.created?.toList.map g := by
    intro hexecutions hnone
    rw [hexecutions, hnone, Option.toList_none, List.map_nil, List.append_nil]
  have heffect := h.effect
  cases n with
  | created reply =>
      obtain ⟨-, row, rfl, -, -, hmemory⟩ := heffect
      rw [hmemory]
      exact List.map_append
  | finished id f reply =>
      obtain ⟨-, ⟨-, -, now, hmemory⟩ | ⟨-, hmemory, -⟩ | ⟨hmemory, -⟩⟩ := heffect
      · rw [hmemory]
        have hrows := Memory.map_modifyFirst (p := fun e => e.id = id)
          (f := fun e => e.finish f now) (g := g) (fun row => hg row f now) s.memory.executions
        exact hrows.trans (List.append_nil _).symm
      · exact hsame (by rw [hmemory]) rfl
      · exact hsame (by rw [hmemory]) rfl
  | found id reply => exact hsame (by rw [heffect.2.1]) rfl
  | touched id instant => exact hsame (by rw [heffect.2]) rfl
  | registered id => exact hsame (by rw [heffect.1]) rfl
  | unregistered id => exact hsame (by rw [heffect.1]) rfl
  | signalled id => exact hsame (by rw [heffect.1]) rfl

/-- What the end of an execution does not touch is, for the executions in a store, what it was for
those before and for those that were created since. -/
theorem Scene.Answers.map_executions {γ : Type} {g : ExecutionRow → γ} {before : List γ} {β : Type}
    {c : Call H β} {reply : β} (hg : ∀ (row : ExecutionRow) f now, g (row.finish f now) = g row)
    (h : s.memory.executions.map g = before ++ s.log.created.map g)
    (hanswer : Scene.Answers r β c s reply s') :
    s'.memory.executions.map g = before ++ s'.log.created.map g := by
  cases hn : c.note? reply with
  | none =>
      have halike := hanswer.alike hn
      rw [halike.executions, halike.log, h]
  | some n =>
      have hnoted := hanswer.noted hn
      have hcreated : s'.log.created = s.log.created ++ n.created?.toList := by
        rw [hnoted.log, Log.created_append, Log.created_single]
      rw [hnoted.map_executions hg, h, hcreated, List.map_append, List.append_assoc]

theorem Scene.Stores.answers {m : Memory} {β : Type} {c : Call H β} {reply : β} (h : s.Stores m)
    (hanswer : Scene.Answers r β c s reply s') : s'.Stores m :=
  hanswer.map_executions (fun _ _ _ => rfl) h

/-! ### Moments -/

/-- Workflows that are started together, among requests to cancel any executions. -/
abbrev Starts (H : Type) :=
  Pool (Call H) Scene (Except RunError (List Outcome)) (Except RunError Bool)

/-- At any time, somebody may ask to cancel any execution. -/
def AsksToCancel (_ : Scene) (q : Proc (Call H) (Except RunError Bool)) : Prop :=
  ∃ id, q = Engine.cancel id

namespace Starts

/-- One moment after another. -/
def Later (a b : Starts H) : Prop := Pool.Reaches Scene.Answers AsksToCancel a b

/-- Nothing has happened but that workflows are to be started. -/
def initial (p : Proc (Call H) (Except RunError (List Outcome))) (m : Memory) (here : Local) :
    Starts H := ⟨p, [], [], ⟨m, here, []⟩⟩

/-- What the owner of a moment has created. -/
def created (a : Starts H) : List ExecutionRow := a.state.log.createdBy .owner

/-- What holds at a moment when workflows were started over a store: for the first of them in their
order an execution was created each, and for no others; and what the store has are these, what was
in it before and what others have created.  All workflows are started if there is a list of outcomes
in the end; otherwise the run of the last one that was started was broken off by the panic of a
handler. -/
structure Proceeds (registry : Registry H) (request : RunRequest) (ids : List Uuid) (m : Memory)
    (a : Starts H) : Prop where
  creates : ∃ n, List.Forall₂ request.Creates (ids.take n) a.created
  stores : a.state.Stores m
  ends : ∃ b report, a.Later b ∧ b.main = .done report
  all : ∀ outcomes, a.main = .done (.ok outcomes) → List.Forall₂ request.Creates ids a.created ∧
    List.Forall₂ (fun row (o : Outcome) => o.executionId = row.id) a.created outcomes
  broken : ∀ e, a.main = .done (.error e) → ∃ before id after row message,
    ids = before ++ id :: after ∧ List.Forall₂ request.Creates (before ++ [id]) a.created ∧
      a.created.getLast? = some row ∧ e = .aborted row.id (panicText message) ∧
      registry.MayPanic message
  unbroken : ∀ message, a.main ≠ .panic message

theorem cancels_ensures {q : Proc (Call H) (Except RunError Bool)} (hq : AsksToCancel s q) :
    q.Ensures (anyone H) .request (fun _ _ => True) (fun _ _ => True) s := by
  obtain ⟨id, rfl⟩ := hq
  exact cancel_ensures_nothing id (fun _ => trivial) (fun _ => trivial) s

/-- In every scene every call has an answer. -/
theorem exists_answers (r : Role) (β : Type) (c : Call H β) (s : Scene) :
    ∃ reply s', Scene.Answers r β c s reply s' := by
  let k : Setting := ⟨[], 0, ⟨0⟩, fun _ => True⟩
  obtain ⟨reply, s', hanswer, -⟩ := k.answered ⟨⟨0, 0⟩, trivial⟩ r β c s
  exact ⟨reply, s', hanswer⟩

section

variable {engine : Engine H} {registry : Registry H} {m : Memory} {here : Local} {a b : Starts H}

/-- What is expected of workflows that are started together. -/
abbrev Sound (registry : Registry H) (request : RunRequest) (ids : List Uuid) (a : Starts H) :
    Prop :=
  Pool.Sound (anyone H) (fun report t => Came registry request ids (t.log.createdBy .owner) report)
    (fun _ _ => False) (fun _ _ => True) a

theorem Sound.later (h : Sound registry request ids a) (hlater : a.Later b) {I : Scene → Prop}
    (hI : ∀ r (β : Type) (c : Call H β) s reply s', Scene.Answers r β c s reply s' → I s → I s')
    (ha : I a.state) : Sound registry request ids b ∧ I b.state := by
  refine Pool.Sound.reaches h ha hlater ?_ fun s q _ hq => cancels_ensures hq
  rintro r s s' ⟨β, c, reply, -, hanswer⟩
  exact hI r β c s reply s' hanswer

theorem Sound.came (h : Sound registry request ids a) {report : Except RunError (List Outcome)}
    (hdone : a.main = .done report) : Came registry request ids a.created report := by
  have hmain := h.main
  rw [hdone] at hmain
  exact hmain _ (.refl _)

theorem Sound.ne_panic (h : Sound registry request ids a) (message : String) :
    a.main ≠ .panic message := by
  intro hpanic
  have hmain := h.main
  rw [hpanic] at hmain
  exact hmain _ (.refl _)

theorem Sound.ends (h : Sound registry request ids a) :
    ∃ b report, a.Later b ∧ b.main = .done report := by
  obtain ⟨left, q, s', hsteps, hover⟩ := can_end exists_answers a.main .owner a.state
  let b : Starts H := ⟨q, a.tasks ++ left, a.requests, s'⟩
  have hlater : a.Later b := Pool.reaches_main hsteps
  cases q with
  | done report => exact ⟨b, report, hlater, rfl⟩
  | panic message =>
      obtain ⟨hsound, -⟩ := h.later hlater (I := fun _ => True) (fun _ _ _ _ _ _ _ _ => trivial)
        trivial
      exact absurd rfl (hsound.ne_panic message)
  | _ => exact hover.elim

/-- What has been created at a moment comes first in what will have been created in the end. -/
theorem Sound.creates (h : Sound registry request ids a) :
    ∃ n, List.Forall₂ request.Creates (ids.take n) a.created := by
  obtain ⟨b, report, hlater, hdone⟩ := h.ends
  have hkeeps : ∀ r (β : Type) (c : Call H β) s reply s', Scene.Answers r β c s reply s' →
      a.created <+: s.log.createdBy .owner → a.created <+: s'.log.createdBy .owner := by
    intro r β c s reply s' hanswer hbefore
    rw [hanswer.log_eq, Log.createdBy_append]
    exact hbefore.trans (List.prefix_append _ _)
  obtain ⟨hsound, hprefix⟩ := h.later hlater hkeeps (List.prefix_refl _)
  have hprefix : a.created <+: b.created := hprefix
  obtain ⟨n, hrows⟩ := (hsound.came hdone).creates
  have hfirst := List.forall₂_take a.created.length hrows
  rw [List.take_take, ← List.prefix_iff_eq_take.mp hprefix] at hfirst
  exact ⟨_, hfirst⟩

/-- At every moment, what is started goes on as it should. -/
theorem proceeds (hchosen : IgnoresLastRun chosen)
    (ha : (initial (engine.runChosen kind chosen request) m here).Later a) :
    a.Proceeds engine.adapter.registry request (Memory.picked kind chosen m.workflows) m := by
  have hinitial : Sound engine.adapter.registry request (Memory.picked kind chosen m.workflows)
      (initial (engine.runChosen kind chosen request) m here) := by
    have hnone : Log.createdBy .owner (⟨m, here, []⟩ : Scene).log = [] := rfl
    exact ⟨Engine.runChosen_comes hchosen hnone, by simp [initial], by simp [initial]⟩
  have hstores : (initial (engine.runChosen kind chosen request) m here).state.Stores m := by
    simp [initial, Scene.Stores, Log.created]
  obtain ⟨hsound, hstores⟩ := hinitial.later ha
    (fun r β c s reply s' hanswer h => Scene.Stores.answers h hanswer) hstores
  exact ⟨hsound.creates, hstores, hsound.ends, fun _ hdone => (hsound.came hdone).of_ok,
    fun _ hdone => (hsound.came hdone).of_error, hsound.ne_panic⟩

end

end Starts

/-- An event and a schedule start the workflows that are chosen, in the order in which they are
listed, until a run is broken off by the panic of a handler.  Whatever the store has, whatever the
handlers do and whoever asks to cancel executions: each workflow that is enabled, listed, readable
and chosen has one execution created for it, and no other has, unless a run before it was broken
off; a row that cannot be read and a run that fails keep no workflow from being started. -/
theorem starts_until_broken (engine : Engine H) (m : Memory) (here : Local) :
    (∀ event payload a, (Starts.initial (engine.dispatchEvent event payload) m here).Later a →
      a.Proceeds engine.adapter.registry (.plain .event payload)
        (Memory.picked .event (fun d => d.trigger = .event event) m.workflows) m) ∧
    ∀ now a, (Starts.initial (engine.runDueSchedules now) m here).Later a →
      a.Proceeds engine.adapter.registry (.scheduled now)
        (Memory.picked .schedule (fun d => d.isDue now.utc) m.workflows) m :=
  ⟨fun _ _ _ ha => Starts.proceeds (fun _ _ => rfl) ha,
    fun _ _ ha => Starts.proceeds (fun _ _ => rfl) ha⟩

/-! ### A handler that panics -/

/-- An engine with a handler that panics. -/
def breaking : Engine Empty :=
  .create [("boom", [(anyVersion, fun _ _ => .panic "boom")])] [] .standard

/-- A workflow for an event, with a step for which the handler panics. -/
def breakingRow (id : Uuid) : WorkflowRow :=
  (Definition.create id "breaking" (.event "order")
    [⟨"start", .trigger, none, .null⟩,
      ⟨"step", .primitive, none, .obj [("primitive", .str "boom")]⟩]
    [⟨"start", "step", none, none⟩]).toRow ⟨0, 0⟩

/-- A store with two such workflows. -/
def breakingMemory : Memory := ⟨[breakingRow ⟨1⟩, breakingRow ⟨2⟩], [], [], [], 0⟩

/-- The state of a process that has read the primitive before. -/
def breakingHere : Local := ⟨[⟨⟨0⟩, "boom", "test", [], 1000, true, "1"⟩], [], []⟩

namespace Starts.Later

variable {a : Starts H} {p p' : Proc (Call H) (Except RunError (List Outcome))}

theorem ofMain (h : a.Later ⟨p, [], [], s⟩) (hstep : Step Scene.Answers .owner p s [] p' s') :
    a.Later ⟨p', [], [], s'⟩ :=
  h.tail (Pool.Move.main hstep)

end Starts.Later

/-- The run of the first workflow is broken off, and ends with it. -/
theorem exists_broken :
    ∃ (row : ExecutionRow) (a : Starts Empty),
      (Starts.initial (breaking.dispatchEvent "order" .null) breakingMemory breakingHere).Later a ∧
      a.main = .done (.error (.aborted row.id (panicText "boom"))) ∧ a.created = [row] ∧
      a.state.log.created = [row] := by
  let now : Time.Instant := ⟨0, 0⟩
  let request : RunRequest := .plain .event .null
  let row := (request.toNew ⟨1⟩).toRow ⟨0⟩ now
  -- The scene after each call that is noted.
  let s₀ : Scene := ⟨breakingMemory, breakingHere, []⟩
  let s₁ : Scene := ⟨breakingMemory.addExecution row, breakingHere, [(.owner, .created (.ok row))]⟩
  let s₂ : Scene := ⟨s₁.memory, { breakingHere with inFlight := [row.id] },
    s₁.log ++ [(.owner, .registered row.id)]⟩
  let s₃ : Scene := { s₂ with log := s₂.log ++ [(.owner, .found row.id (.ok (some row)))] }
  let s₄ : Scene := ⟨s₁.memory, breakingHere, s₃.log ++ [(.owner, .unregistered row.id)]⟩
  let failed : Finish := ⟨.failed, none, some (panicText "boom")⟩
  let s₅ : Scene := ⟨s₁.memory.ended row.id failed now, breakingHere,
    s₄.log ++ [(.owner, .finished row.id failed (.ok true))]⟩
  have hlist : Scene.Answers .owner _ (.store (.listEnabled "event") : Call Empty _) s₀
      (.ok [breakingRow ⟨1⟩, breakingRow ⟨2⟩]) s₀ := by
    refine ⟨⟨⟨0⟩, now, ⟨rfl, ?_, ?_⟩, rfl⟩, rfl, rfl⟩ <;> simp [s₀, breakingHere]
  have hcreate : Scene.Answers .owner _
      (.store (.createExecution (request.toNew ⟨1⟩)) : Call Empty _) s₀ (.ok row) s₁ := by
    refine ⟨⟨⟨0⟩, now, ⟨rfl, ?_, ?_⟩, rfl⟩, rfl, rfl⟩ <;> simp [s₀, breakingHere]
  have hregister : Scene.Answers .owner _ (.here (.register row.id) : Call Empty _) s₁ () s₂ :=
    ⟨rfl, rfl, rfl⟩
  have hfound : Scene.Answers .owner _ (.store (.getExecution row.id) : Call Empty _) s₂
      (.ok (some row)) s₃ := by
    refine ⟨⟨⟨1⟩, now, ⟨rfl, ?_, ?_⟩, rfl⟩, rfl, rfl⟩ <;> simp [s₂, row, breakingHere]
  have hgoes : Scene.Answers .owner _ (.here (.isStopped row.id) : Call Empty _) s₃ false s₃ :=
    ⟨rfl, rfl, rfl⟩
  have hcached : Scene.Answers .owner _ (.here (.cachedByName "boom") : Call Empty _) s₃
      breakingHere.cache.head? s₃ := ⟨rfl, rfl, rfl⟩
  have hunregister : Scene.Answers .owner _ (.here (.unregister row.id) : Call Empty _) s₃ () s₄ :=
    ⟨rfl, rfl, rfl⟩
  have hfinish : Scene.Answers .owner _
      (.store (.finishExecution row.id failed) : Call Empty _) s₄ (.ok true) s₅ := by
    refine ⟨⟨⟨1⟩, now, ⟨rfl, ?_, ?_⟩, rfl⟩, rfl, rfl⟩ <;> simp [s₄, breakingHere]
  have hstart : (Starts.initial (breaking.dispatchEvent "order" .null) breakingMemory
      breakingHere).Later ⟨breaking.dispatchEvent "order" .null, [], [], s₀⟩ := .refl
  have hregistered := ((hstart.ofMain (.ask hlist)).ofMain (.ask hcreate)).ofMain (.ask hregister)
  have hwalk := ((hregistered.ofMain .ownStarted).ofMain
    (.own (.attempt (.ask (b := now) rfl)))).ofMain (.own (.attempt (.ask hfound)))
  have htrigger := ((hwalk.ofMain (.own (.attempt (.ask (b := now) rfl)))).ofMain
    (.own (.attempt (.ask hgoes)))).ofMain (.own (.attempt (.ask (b := now) rfl)))
  have hstep := ((htrigger.ofMain (.own (.attempt (.ask (b := now) rfl)))).ofMain
    (.own (.attempt (.ask hgoes)))).ofMain (.own (.attempt (.ask hcached)))
  have hpanic := (hstep.ofMain (.own (.attempt (.ask (b := now) rfl)))).ofMain
    (.own (.attempt .limitPanic))
  have hclosed := (hpanic.ofMain (.own .attemptPanic)).ofMain (.own (.ask hunregister))
  have hover := (hclosed.ofMain .ownPanic).ofMain (.ask hfinish)
  exact ⟨row, _, hover, rfl, rfl, rfl⟩

/-- Of two workflows for an event the second is not started. -/
theorem not_started_when_broken :
    Memory.picked .event (fun d => d.trigger = .event "order") breakingMemory.workflows =
      [⟨1⟩, ⟨2⟩] ∧
    ∃ (a : Starts Empty) (e : RunError),
      (Starts.initial (breaking.dispatchEvent "order" .null) breakingMemory breakingHere).Later a ∧
      a.main = .done (.error e) ∧
      a.state.memory.executions.map ExecutionRow.workflowId = [⟨1⟩] := by
  have hpicked : Memory.picked .event (fun d => d.trigger = .event "order")
      breakingMemory.workflows = [⟨1⟩, ⟨2⟩] := by rfl
  obtain ⟨row, a, ha, hdone, hrow, hcreated⟩ := exists_broken
  obtain ⟨hevent, -⟩ := starts_until_broken breaking breakingMemory breakingHere
  have hproceeds := hevent "order" .null a ha
  obtain ⟨before, id, after, _, _, hids, hrows, -, -, -⟩ := hproceeds.broken _ hdone
  rw [hpicked] at hids
  rw [hrow] at hrows
  have hbefore : before = [] := by
    have hlength := hrows.length_eq
    simp only [List.length_append, List.length_singleton] at hlength
    exact List.length_eq_zero_iff.mp (by omega)
  subst hbefore
  obtain ⟨rfl, -⟩ := List.cons.inj hids
  obtain ⟨⟨fresh, now, hnew⟩, -⟩ := List.forall₂_cons.mp hrows
  have hworkflow : row.workflowId = ⟨1⟩ := by rw [hnew]; rfl
  have hstores := hproceeds.stores
  rw [Scene.Stores, hcreated] at hstores
  have hflows := congrArg (List.map Prod.snd) hstores
  refine ⟨hpicked, a, _, ha, hdone, ?_⟩
  simpa [ExecutionRow.origin, breakingMemory, Function.comp_def, hworkflow] using hflows

end Workflow
