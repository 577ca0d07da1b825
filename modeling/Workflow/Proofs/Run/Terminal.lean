import Workflow.Proofs.Run.Owner

/-!
# Exactly one end

A run goes on beside any number of requests to cancel its execution, each of which comes at any
time after the execution was created.  Whatever the order of their steps and whatever the handlers
do, the execution is ended exactly once: by the run or by one request.  The run, the requests and
the store then agree on how.
-/

namespace Workflow

open Proc

variable {H : Type} {engine : Engine H} {d : Definition} {request : RunRequest} {s s₀ : Scene}
  {row : ExecutionRow} {id wid : Uuid} {workflows₀ : List WorkflowRow} {r : Role}

/-! ### Runs beside requests -/

/-- A run beside requests to cancel. -/
abbrev Runs (H : Type) := Pool (Call H) Scene (Except RunError Outcome) (Except RunError Bool)

/-- The execution that the run of a scene has created. -/
def Scene.Created (row : ExecutionRow) (s : Scene) : Prop :=
  (Role.owner, Note.created (.ok row)) ∈ s.log

/-- Requests to cancel an execution come after its run has created it. -/
def Opens (s : Scene) (q : Proc (Call H) (Except RunError Bool)) : Prop :=
  ∃ row, s.Created row ∧ q = Engine.cancel row.id

/-- One moment of a run after another. -/
def Runs.Later (a b : Runs H) : Prop := Pool.Reaches Scene.Answers Opens a b

/-- A run that has not made its first call. -/
def Engine.initial (engine : Engine H) (d : Definition) (request : RunRequest) (s₀ : Scene) :
    Runs H := ⟨engine.run d request, [], [], s₀⟩

/-- What holds at every moment of a run at which its execution is created. -/
structure Live (row : ExecutionRow) (wid : Uuid) (workflows₀ : List WorkflowRow) (a : Runs H) :
    Prop where
  sound : Pool.Sound (conduct H row.id wid)
    (fun report s => ∃ l, .unregistered row.id ∈ l ∧ Ended row wid workflows₀ l report s)
    (fun _ _ => False) (Answered row.id .request) a
  consistent : Consistent row wid workflows₀ a.state

theorem Consistent.created_eq (h : Consistent row wid workflows₀ s) {row' : ExecutionRow}
    (hrow' : s.Created row') : row' = row := by
  have hreply := h.created (.ok row') ((Log.mem_notesOf _ _ _).mpr hrow')
  exact Except.ok.inj hreply

theorem opens_ensures (h : Consistent row wid workflows₀ s)
    {q : Proc (Call H) (Except RunError Bool)} (hq : Opens s q) :
    q.Ensures (conduct H row.id wid) .request (Answered row.id .request) (fun _ _ => True) s := by
  obtain ⟨row', hcreated, rfl⟩ := hq
  rw [h.created_eq hcreated]
  exact (cancel_ensures (.inr rfl) row.id h).mono (fun _ _ hanswer => hanswer.2 rfl)
    fun _ _ hx => hx

namespace Live

variable {a b : Runs H}

theorem move (h : Live row wid workflows₀ a) (hmove : Pool.Move Scene.Answers Opens a b) :
    Live row wid workflows₀ b := by
  obtain ⟨hsound, hmoved⟩ := h.sound.move hmove fun q hq => opens_ensures h.consistent hq
  refine ⟨hsound, ?_⟩
  rcases hmoved with heq | ⟨r, hm⟩
  · rw [heq]
    exact h.consistent
  · exact h.consistent.moves hm

theorem later (h : Live row wid workflows₀ a) (hlater : a.Later b) :
    Live row wid workflows₀ b := by
  induction hlater with
  | refl => exact h
  | tail _ hmove ih => exact ih.move hmove

theorem lasts (h : Live row wid workflows₀ a) (hlater : a.Later b) {F : Scene → Prop}
    (hF : Standing.Lasts H row wid workflows₀ F) (ha : F a.state) : F b.state := by
  induction hlater with
  | refl => exact ha
  | tail hbefore hmove ih =>
      have hlive := h.later hbefore
      obtain ⟨-, heq | ⟨r, hmoves⟩⟩ :=
        hlive.sound.move hmove fun q hq => opens_ensures hlive.consistent hq
      · rw [heq]
        exact ih
      · exact hF r _ _ hlive.consistent hmoves ih

theorem created (hclient : engine.adapter.registry.IsClient)
    {reply : Except StoreError ExecutionRow} (hlog : s₀.log = [])
    (hs : Scene.Answers .owner _ (.store (.createExecution (request.toNew d.id)) : Call H _) s₀
      reply s) :
    ∃ row, reply = .ok row ∧
      Live row d.id s₀.memory.workflows (⟨engine.begun d request row, [], [], s⟩ : Runs H) := by
  have hnoted := hs.noted rfl
  obtain ⟨hhere, row, rfl, hunused, hrun, hmem⟩ := hnoted.effect
  have hslog : s.log = [(.owner, .created (.ok row))] := by rw [hnoted.log, hlog, List.nil_append]
  have hconsistent : Consistent row d.id s₀.memory.workflows s :=
    { began := hrun
      row := .inl ⟨by simp [hslog, Log.grants], by
        simp [hmem, Memory.execution?_addExecution, hunused.1]⟩
      granted := by simp [hslog, Log.grants]
      stopped := by
        rw [hhere]
        exact fun h => absurd h hunused.2.2
      signalled := by simp [hslog, Log.Signalled]
      inFlight := by simp [hslog, hhere, hunused.2.1]
      workflows := by
        rw [hmem, hslog]
        rfl
      stamped := by simp [hslog, Log.stamps, Note.stamp?]
      touched := by simp [hslog, Log.stamps, Note.stamp?]
      created := by simp [hslog] }
  refine ⟨row, rfl, ⟨?_, by simp, by simp⟩, hconsistent⟩
  refine Engine.begun_ensures hclient d request ⟨hconsistent, rfl⟩ ?_ ?_
  · exact ⟨by simp [hslog], by simp [hslog, Note.stamp?]⟩
  · simp [hslog]

end Live

/-! ### Requests -/

/-- Where a request stands, with whether it was this request that ended the execution. -/
inductive Requested (id : Uuid) : Proc (Call H) (Except RunError Bool) → Bool → Prop where
  | opened : Requested id (Engine.cancel id) false
  | finished (applied : Bool) :
      Requested id (.askHere (.signal id) fun _ => .done (.ok applied)) applied
  | answered (applied : Bool) : Requested id (.done (.ok applied)) applied

theorem grantsBy_of_moved (hr : ∀ other, Rules.Under r other → other ≠ .request) {s s' : Scene}
    (h : (conduct H id wid).Moved r s s') :
    s'.log.grantsBy .request id = s.log.grantsBy .request id := by
  rcases h with rfl | ⟨other, hother, hmoves⟩
  · rfl
  · rcases moves_cases hmoves with halike | ⟨n, -, hnoted⟩
    · rw [halike.log]
    · rw [hnoted.log, Log.grantsBy_append, Log.grantsBy_single_of_ne _ _ (hr other hother),
        Nat.add_zero]

/-- A step of a request: it is counted as one that ended the execution when it does so. -/
theorem Requested.step {q q' : Proc (Call H) (Except RunError Bool)} {flag : Bool}
    {left : List (Proc (Call H) Unit)} {s s' : Scene}
    (h : Requested row.id q flag) (hs : Consistent row wid workflows₀ s)
    (hstep : Step Scene.Answers .request q s left q' s') :
    ∃ flag', Requested row.id q' flag' ∧
      s'.log.grantsBy .request row.id + flag.toNat =
        s.log.grantsBy .request row.id + flag'.toNat := by
  cases h with
  | opened =>
      cases hstep with
      | @ask _ _ _ _ _ _ _ reply hanswer =>
          have hnoted := hanswer.noted rfl
          obtain ⟨applied, rfl, -, -⟩ := hs.ended_of_finished hnoted
          refine ⟨applied, .finished applied, ?_⟩
          rw [hnoted.log, Log.grantsBy_append]
          cases applied with
          | true => simp [Log.grantsBy]
          | false => simp [Log.grantsBy, Log.grants]
  | finished applied =>
      cases hstep with
      | ask hanswer =>
          refine ⟨flag, .answered flag, ?_⟩
          rw [(hanswer.noted rfl).log, Log.grantsBy_append]
          simp [Log.grantsBy, Log.grants]
  | answered applied => cases hstep

/-- The requests of a run, with whether each ended the execution, as the log counts them. -/
structure Counted (id : Uuid) (a : Runs H)
    (flagged : List (Proc (Call H) (Except RunError Bool) × Bool)) : Prop where
  requests : a.requests = flagged.map Prod.fst
  requested : ∀ x ∈ flagged, Requested id x.1 x.2
  count : flagged.countP (fun x => x.2) = a.state.log.grantsBy .request id

namespace Counted

variable {a b : Runs H} {flagged : List (Proc (Call H) (Except RunError Bool) × Bool)}

theorem move (h : Counted row.id a flagged) (hlive : Live row wid workflows₀ a)
    (hmove : Pool.Move Scene.Answers Opens a b) : ∃ flagged', Counted row.id b flagged' := by
  rcases Pool.move_cases hmove with ⟨left, hstep, -, hrequests⟩ |
    ⟨before, after, t, t', left, htasks, hstep, -, -, hrequests⟩ |
    ⟨before, after, q, q', left, hrequests, hstep, -, -, hrequests'⟩ |
    ⟨q, ⟨row', hcreated, rfl⟩, rfl⟩
  · refine ⟨flagged, hrequests ▸ h.requests, h.requested, h.count.trans (Eq.symm ?_)⟩
    refine grantsBy_of_moved ?_ (hlive.sound.main.step hstep).2.1
    rintro other (rfl | rfl | rfl) <;> decide
  · refine ⟨flagged, hrequests ▸ h.requests, h.requested, h.count.trans (Eq.symm ?_)⟩
    have ht := hlive.sound.tasks t (by simp [htasks])
    refine grantsBy_of_moved ?_ (ht.step hstep).2.1
    rintro other (rfl | rfl | rfl) <;> decide
  · -- The request that takes the step stands among the others, with a flag that may change.
    obtain ⟨xs, rest, rfl, rfl, hrest⟩ := List.map_eq_append_iff.mp (h.requests ▸ hrequests)
    obtain ⟨⟨q, flag⟩, ys, rfl, rfl, rfl⟩ := List.map_eq_cons_iff.mp hrest
    obtain ⟨flag', hrequested, hcount⟩ :=
      (h.requested (q, flag) (by simp)).step hlive.consistent hstep
    refine ⟨xs ++ (q', flag') :: ys, by simp [hrequests'], fun x hx => ?_, ?_⟩
    · rcases Pool.eq_or_mem_of_mem_replaced hx with rfl | hx
      · exact hrequested
      · exact h.requested x hx
    · have hbefore := h.count
      rw [List.countP_append, List.countP_cons] at hbefore ⊢
      cases flag <;> cases flag' <;> simp at hcount hbefore ⊢ <;> omega
  · rw [hlive.consistent.created_eq hcreated]
    refine ⟨flagged ++ [(Engine.cancel row.id, false)], by simp [h.requests], fun x hx => ?_, ?_⟩
    · rcases List.mem_append.mp hx with hx | hx
      · exact h.requested x hx
      · rw [List.mem_singleton] at hx
        exact hx ▸ .opened
    · rw [List.countP_append, h.count]
      rfl

theorem flag_of_answered (h : Counted id a flagged) {q : Proc (Call H) (Except RunError Bool)}
    {flag applied : Bool} (hmem : (q, flag) ∈ flagged) (hq : q = .done (.ok applied)) :
    flag = applied := by
  have hrequested : Requested id q flag := h.requested _ hmem
  subst hq
  cases hrequested
  rfl

theorem count_of_answers (h : Counted id a flagged) {answers : List Bool}
    (hanswers : a.requests = answers.map fun applied => .done (.ok applied)) :
    answers.count true = a.state.log.grantsBy .request id := by
  rw [← h.count]
  have hflags : flagged.map Prod.snd = answers := by
    have hlists := h.requests.symm.trans hanswers
    have heach : ∀ (xs : List (Proc (Call H) (Except RunError Bool) × Bool)) (ys : List Bool),
        (∀ x ∈ xs, x ∈ flagged) → xs.map Prod.fst = ys.map (fun applied => .done (.ok applied)) →
          xs.map Prod.snd = ys := by
      intro xs ys hxs heq
      induction xs generalizing ys with
      | nil => exact (List.map_eq_nil_iff.mp heq.symm).symm
      | cons x xs ih =>
          obtain ⟨y, ys, rfl, hy, hys⟩ := List.map_eq_cons_iff.mp heq.symm
          have hflag : x.2 = y :=
            h.flag_of_answered (hxs x List.mem_cons_self) hy.symm
          rw [List.map_cons, hflag, ih ys (fun x hx => hxs x (List.mem_cons_of_mem _ hx)) hys.symm]
    exact heach flagged answers (fun _ hx => hx) hlists
  rw [← hflags, List.count, List.countP_map]
  exact List.countP_congr fun x _ => by simp

end Counted

/-- A run has not made its first call, or it is live and its requests are counted. -/
theorem live_of_later (hclient : engine.adapter.registry.IsClient) (hlog : s₀.log = [])
    {a : Runs H} (ha : (engine.initial d request s₀).Later a) :
    a = engine.initial d request s₀ ∨
      ∃ row flagged, Live row d.id s₀.memory.workflows a ∧ Counted row.id a flagged := by
  induction ha with
  | refl => exact .inl rfl
  | tail _ hmove ih =>
      rcases ih with rfl | ⟨row, flagged, hlive, hcounted⟩
      · rcases Pool.move_of_ask hmove with ⟨reply, s, hs, rfl⟩ | ⟨q, ⟨row, hrow, -⟩, -⟩
        · obtain ⟨row, rfl, hlive⟩ := Live.created hclient hlog hs
          refine .inr ⟨row, [], hlive, rfl, by simp, ?_⟩
          simp [(hs.noted rfl).log, hlog, Log.grantsBy, Log.grants]
        · simp [Scene.Created, hlog] at hrow
      · obtain ⟨flagged', hcounted'⟩ := hcounted.move hlive hmove
        exact .inr ⟨row, flagged', hlive.move hmove, hcounted'⟩

theorem live_of_created (hclient : engine.adapter.registry.IsClient) (hlog : s₀.log = [])
    {a : Runs H} (ha : (engine.initial d request s₀).Later a) (hrow : a.state.Created row) :
    Live row d.id s₀.memory.workflows a ∧ ∃ flagged, Counted row.id a flagged := by
  rcases live_of_later hclient hlog ha with rfl | ⟨row', flagged, hlive, hcounted⟩
  · simp [Scene.Created, Engine.initial, hlog] at hrow
  · rw [hlive.consistent.created_eq hrow]
    exact ⟨hlive, flagged, hcounted⟩

/-! ### One end -/

namespace Consistent

/-- The state of the row, and how often and by whom the execution was ended. -/
theorem tally (h : Consistent row wid workflows₀ s) :
    ∃ last status, s.memory.execution? row.id = some last ∧ last.state = .ok status ∧
      (s.log.grants row.id).length = (if status.isTerminal then 1 else 0) ∧
      s.log.grantsBy .request row.id + s.log.grantsBy .guest row.id =
        if status = .cancelled then 1 else 0 := by
  rcases h.state with ⟨hnone, hrow⟩ | ⟨r, f, last, hgrants, hrow, hstate, -, hterm⟩
  · exact ⟨row, .running, hrow, h.began, by simp [hnone, ExecutionStatus.isTerminal],
      by simp [Log.grantsBy, hnone]⟩
  · refine ⟨last, f.status, hrow, hstate, by simp [hgrants, hterm], ?_⟩
    rcases (h.granted (r, f) (by simp [hgrants])).2 with ⟨rfl, hf⟩ | ⟨rfl | rfl, hf⟩
    · simp [Log.grantsBy, hgrants, hf]
    · simp [Log.grantsBy, hgrants, show f = cancelFinish from hf, cancelFinish]
    · simp [Log.grantsBy, hgrants, show f = cancelFinish from hf, cancelFinish]

end Consistent

theorem Ended.agrees {l : List Note} {report : Except RunError Outcome} {last : ExecutionRow}
    {status : ExecutionStatus} (h : Ended row wid workflows₀ l report s)
    (hrow : s.memory.execution? row.id = some last) (hstatus : last.state = .ok status) :
    status.isTerminal = true ∧ Reported row.id wid status report ∧
      s.log.stamps.length = if status = .completed then 1 else 0 := by
  obtain ⟨hstands, r, f, hgrants, hreport, hstamps⟩ := h
  rcases hstands.consistent.state with
    ⟨hnone, -⟩ | ⟨r', f', last', hgrants', hrow', hstate, -, hterm⟩
  · simp [hgrants] at hnone
  · rw [hrow, Option.some.injEq] at hrow'
    rw [hgrants, List.cons.injEq, Prod.mk.injEq] at hgrants'
    rw [← hrow', hstatus, Except.ok.injEq] at hstate
    rw [hstate, ← hgrants'.1.2]
    refine ⟨?_, hreport, by rw [hstands.stamps, hstamps]⟩
    rw [hgrants'.1.2]
    exact hterm

/-- The last run of a workflow is stamped at most once, and nothing else of a workflow changes. -/
theorem Consistent.workflows_eq (h : Consistent row wid workflows₀ s)
    (hstamps : s.log.stamps.length ≤ 1) :
    (s.log.stamps = [] ∧ s.memory.workflows = workflows₀) ∨
      ∃ now, s.log.stamps = [(wid, now)] ∧
        s.memory.workflows = Memory.stamped workflows₀ wid now := by
  have hworkflows := h.workflows
  rcases hlist : s.log.stamps with _ | ⟨⟨w, now⟩, _ | ⟨e, rest⟩⟩
  · rw [hlist] at hworkflows
    exact .inl ⟨rfl, hworkflows⟩
  · obtain rfl : w = wid := (h.stamped (w, now) (by simp [hlist])).1
    rw [hlist] at hworkflows
    exact .inr ⟨now, rfl, hworkflows⟩
  · simp [hlist] at hstamps

/-- Exactly one end.  At every moment after its execution was created the row can be read, the
calls that ended it are one or none, and once there is one the row never changes again; requests
and handlers have cancelled it once if its state is cancelled, and not at all otherwise; and it is
in flight between its registration and the end of its run.  When the run has returned, the row is
terminal, what is reported agrees with it, and the workflow is stamped exactly if it completed. -/
theorem one_terminal_transition (hclient : engine.adapter.registry.IsClient) (hlog : s₀.log = [])
    {a b : Runs H} (ha : (engine.initial d request s₀).Later a) (hrow : a.state.Created row)
    (hb : a.Later b) :
    (a.state.log.grants row.id ≠ [] →
      b.state.memory.execution? row.id = a.state.memory.execution? row.id) ∧
    (row.id ∈ b.state.here.inFlight ↔ .registered row.id ∈ b.state.log.notesOf .owner ∧
      .unregistered row.id ∉ b.state.log.notesOf .owner) ∧
    (∀ message, b.main ≠ .panic message) ∧
    ∃ last status, b.state.memory.execution? row.id = some last ∧ last.state = .ok status ∧
      (b.state.log.grants row.id).length = (if status.isTerminal then 1 else 0) ∧
      (∀ answers : List Bool, b.requests = answers.map (fun applied => .done (.ok applied)) →
        answers.count true + b.state.log.grantsBy .guest row.id =
          if status = .cancelled then 1 else 0) ∧
      (status ≠ .cancelled → .done (.ok true) ∉ b.requests) ∧
      ∀ report, b.main = .done report →
        status.isTerminal = true ∧ Reported row.id d.id status report ∧
        row.id ∉ b.state.here.inFlight ∧
        ((status = .completed ∧ ∃ now, b.state.log.stamps = [(d.id, now)] ∧
            b.state.memory.workflows = Memory.stamped s₀.memory.workflows d.id now) ∨
          (status ≠ .completed ∧ b.state.log.stamps = [] ∧
            b.state.memory.workflows = s₀.memory.workflows)) := by
  have hlive := (live_of_created hclient hlog ha hrow).1
  have hrow' : b.state.Created row := hlive.lasts hb (Standing.lasts_mem_log _) hrow
  obtain ⟨hlive', flagged, hcounted⟩ := live_of_created hclient hlog (ha.trans hb) hrow'
  have hcons := hlive'.consistent
  obtain ⟨last, status, hlast, hstatus, hgrants, hcancels⟩ := hcons.tally
  have hstays (hended : a.state.log.grants row.id ≠ []) :
      b.state.memory.execution? row.id = a.state.memory.execution? row.id :=
    (hlive.lasts hb (Standing.lasts_row hended _) ⟨rfl, rfl⟩).2
  refine ⟨hstays, hcons.inFlight, fun message hmain => ?_, last, status, hlast, hstatus, hgrants,
    fun answers hanswers => ?_, fun hne hmem => ?_, fun report hmain => ?_⟩
  · have hpanic := hlive'.sound.main
    rw [hmain] at hpanic
    exact hpanic _ (.refl _)
  · rw [hcounted.count_of_answers hanswers, hcancels]
  · rw [if_neg hne] at hcancels
    rw [hcounted.requests, List.mem_map] at hmem
    obtain ⟨⟨q, flag⟩, hx, hq⟩ := hmem
    obtain rfl := hcounted.flag_of_answered hx hq
    have hpos : 0 < flagged.countP fun x => x.2 := List.countP_pos_iff.mpr ⟨_, hx, rfl⟩
    have hcount := hcounted.count
    omega
  · have hdone := hlive'.sound.main
    rw [hmain] at hdone
    obtain ⟨l, hunreg, hended⟩ := hdone _ (.refl _)
    obtain ⟨hterm, hreport, hstamps⟩ := hended.agrees hlast hstatus
    have hgone : row.id ∉ b.state.here.inFlight := by
      intro hin
      rw [hcons.inFlight, hended.1.history] at hin
      exact hin.2 hunreg
    have honce : b.state.log.stamps.length ≤ 1 := by
      rw [hstamps]
      split <;> simp
    refine ⟨hterm, hreport, hgone, ?_⟩
    rcases hcons.workflows_eq honce with ⟨hnone, hworkflows⟩ | ⟨now, hnow, hworkflows⟩
    · refine .inr ⟨fun hcompleted => ?_, hnone, hworkflows⟩
      simp [hnone, hcompleted] at hstamps
    · refine .inl ⟨?_, now, hnow, hworkflows⟩
      by_contra hne
      simp [hnow, hne] at hstamps

/-! ### A request that comes first -/

/-- A scene in which nothing has happened. -/
def Scene.empty : Scene := ⟨.empty, .empty, []⟩

namespace Runs.Later

variable {a : Runs H} {p p' : Proc (Call H) (Except RunError Outcome)}
  {q q' : Proc (Call H) (Except RunError Bool)}
  {requests : List (Proc (Call H) (Except RunError Bool))} {s' : Scene}

theorem ofMain (h : a.Later ⟨p, [], requests, s⟩)
    (hstep : Step Scene.Answers .owner p s [] p' s') : a.Later ⟨p', [], requests, s'⟩ :=
  h.tail (Pool.Move.main hstep)

theorem ofRequest (h : a.Later ⟨p, [], [q], s⟩)
    (hstep : Step Scene.Answers .request q s [] q' s') : a.Later ⟨p, [], [q'], s'⟩ := by
  have hmove : Pool.Move Scene.Answers Opens (⟨p, [], [] ++ q :: [], s⟩ : Runs H)
      ⟨p, [] ++ [], [] ++ q' :: [], s'⟩ := .request hstep
  exact h.tail hmove

theorem ofOpened (h : a.Later ⟨p, [], [], s⟩) (hrow : s.Created row) :
    a.Later ⟨p, [], [Engine.cancel row.id], s⟩ := by
  have hmove : Pool.Move Scene.Answers Opens (⟨p, [], [], s⟩ : Runs H)
      ⟨p, [], [] ++ [Engine.cancel row.id], s⟩ := .opened ⟨row, hrow, rfl⟩
  exact h.tail hmove

end Runs.Later

/-- Whatever is run, a request may come before the run is registered.  Then the run reads the row
that was cancelled, and is over without a walk. -/
theorem exists_cancelled_first (engine : Engine H) (d : Definition) (request : RunRequest)
    (now : Time.Instant) :
    ∃ (row : ExecutionRow) (a b : Runs H), (engine.initial d request .empty).Later a ∧
      a.state.Created row ∧ a.Later b ∧ b.requests = [.done (.ok true)] ∧
      ∃ o, b.main = .done (.ok o) ∧ o.nodeResults = [] := by
  let row := (request.toNew d.id).toRow ⟨0⟩ now
  -- The memory and the scene after each of the calls that are noted.
  let m₁ := Memory.empty.addExecution row
  let m₂ := m₁.ended row.id cancelFinish now
  let s₁ : Scene := ⟨m₁, .empty, [(.owner, .created (.ok row))]⟩
  let s₂ : Scene := ⟨m₂, .empty, s₁.log ++ [(.request, .finished row.id cancelFinish (.ok true))]⟩
  let s₃ : Scene := ⟨m₂, .empty, s₂.log ++ [(.request, .signalled row.id)]⟩
  let s₄ : Scene := ⟨m₂, ⟨[], [row.id], []⟩, s₃.log ++ [(.owner, .registered row.id)]⟩
  let found : Note := .found row.id (.ok (some (row.finish cancelFinish now)))
  let s₅ : Scene := { s₄ with log := s₄.log ++ [(.owner, found)] }
  let s₆ : Scene := ⟨m₂, .empty, s₅.log ++ [(.owner, .unregistered row.id)]⟩
  have hcreate : Scene.Answers .owner _
      (.store (.createExecution (request.toNew d.id)) : Call H _) .empty (.ok row) s₁ := by
    refine ⟨⟨⟨0⟩, now, ⟨rfl, ?_, ?_⟩, rfl⟩, rfl, rfl⟩ <;> simp [Scene.empty, Local.empty]
  have hfinish : Scene.Answers .request _
      (.store (.finishExecution row.id cancelFinish) : Call H _) s₁ (.ok true) s₂ := by
    refine ⟨⟨⟨1⟩, now, ⟨rfl, ?_, ?_⟩, rfl⟩, rfl, rfl⟩ <;> simp [s₁, Local.empty]
  have hsignal : Scene.Answers .request _ (.here (.signal row.id) : Call H _) s₂ () s₃ :=
    ⟨rfl, rfl, rfl⟩
  have hregister : Scene.Answers .owner _ (.here (.register row.id) : Call H _) s₃ () s₄ :=
    ⟨rfl, rfl, rfl⟩
  have hfound : Scene.Answers .owner _ (.store (.getExecution row.id) : Call H _) s₄
      (.ok (some (row.finish cancelFinish now))) s₅ := by
    refine ⟨⟨⟨1⟩, now, ⟨rfl, ?_, ?_⟩, rfl⟩, rfl, rfl⟩ <;> simp [s₄, row]
  have hunregister : Scene.Answers .owner _ (.here (.unregister row.id) : Call H _) s₅ () s₆ :=
    ⟨rfl, rfl, rfl⟩
  have ha : (engine.initial d request .empty).Later ⟨engine.begun d request row, [], [], s₁⟩ :=
    .ofMain .refl (.ask hcreate)
  have hcancelled : Runs.Later (⟨engine.begun d request row, [], [], s₁⟩ : Runs H)
      ⟨engine.begun d request row, [], [.done (.ok true)], s₃⟩ :=
    ((Runs.Later.ofOpened .refl (List.mem_singleton_self _)).ofRequest (.ask hfinish)).ofRequest
      (.ask hsignal)
  have hstarted := ((hcancelled.ofMain (.ask hregister)).ofMain .ownStarted).ofMain
    (.own (.attempt (.ask (b := now) rfl)))
  have hread := (hstarted.ofMain (.own (.attempt (.ask hfound)))).ofMain
    (.own (.attempt (.ask (b := now) rfl)))
  have hover :=
    ((hread.ofMain (.own .attemptDone)).ofMain (.own (.ask hunregister))).ofMain .ownDone
  exact ⟨row, _, _, ha, List.mem_singleton_self _, hover, rfl, _, rfl, rfl⟩

/-- The run of an empty workflow whose execution is cancelled first. -/
theorem terminal_of_cancelled_first :
    let engine : Engine Empty := .create [] [] .standard
    let idle : Definition := .create ⟨0⟩ "idle" .manual [] []
    ∃ (row : ExecutionRow) (a b : Runs Empty),
      (engine.initial idle (.plain .manual .null) .empty).Later a ∧ a.state.Created row ∧
      a.Later b ∧ b.requests = [.done (.ok true)] ∧
      (∃ o, b.main = .done (.ok o) ∧ o.status = .cancelled) ∧
      (∃ last, b.state.memory.execution? row.id = some last ∧ last.state = .ok .cancelled) ∧
      row.id ∉ b.state.here.inFlight ∧ b.state.log.stamps = [] := by
  intro engine idle
  obtain ⟨row, a, b, ha, hrow, hb, hrequests, o, hmain, -⟩ :=
    exists_cancelled_first engine idle (.plain .manual .null) ⟨0, 0⟩
  obtain ⟨-, -, -, last, status, hlast, hstatus, -, hcount, hnone, hend⟩ :=
    one_terminal_transition Registry.isClient_nil rfl ha hrow hb
  obtain ⟨-, hreport, hinFlight, hstamps⟩ := hend _ hmain
  have hcancelled : status = .cancelled := by
    by_contra hne
    exact hnone hne (by simp [hrequests])
  subst hcancelled
  refine ⟨row, a, b, ha, hrow, hb, hrequests, ⟨o, hmain, ?_⟩, ⟨last, hlast, hstatus⟩, hinFlight,
    ?_⟩
  · cases hreport
    assumption
  · rcases hstamps with ⟨hcompleted, -⟩ | ⟨-, hstamps, -⟩
    · cases hcompleted
    · exact hstamps

end Workflow
