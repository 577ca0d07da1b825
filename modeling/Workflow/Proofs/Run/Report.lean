import Workflow.Proofs.Run.Owner
import Workflow.Proofs.Run.Panic

/-!
# What a run reports

Whatever handlers, requests and other runs do, a store in memory keeps the row of an execution so
that it can be read.  So a run that has created its execution reports one of two things: an outcome
of this execution, or that it was broken off by the panic of a handler.  Nothing else is created by
a run.
-/

namespace Workflow

open Proc

variable {H : Type} {r : Role} {s s' t : Scene} {rows : List ExecutionRow} {id wid : Uuid}
  {row : ExecutionRow}

/-! ### Executions that were created -/

/-- The execution that was created, if a note is of that. -/
def Note.created? : Note → Option ExecutionRow
  | .created (.ok row) => some row
  | _ => none

namespace Log

/-- The executions that were created by a role, in their order. -/
def createdBy (r : Role) (log : Log) : List ExecutionRow := (log.notesOf r).filterMap Note.created?

/-- The executions that were created by anyone, in their order. -/
def created (log : Log) : List ExecutionRow := log.filterMap fun e => e.2.created?

theorem created_append (log log' : Log) : created (log ++ log') = created log ++ created log' :=
  List.filterMap_append

theorem created_single (r : Role) (n : Note) : created [(r, n)] = n.created?.toList := by
  cases hn : n.created? <;> simp [created, hn]

theorem createdBy_append (r : Role) (log log' : Log) :
    createdBy r (log ++ log') = createdBy r log ++ createdBy r log' := by
  simp [createdBy, List.filterMap_append]

theorem createdBy_single_self (r : Role) (n : Note) :
    createdBy r [(r, n)] = n.created?.toList := by
  rw [createdBy, notesOf_single_self]
  cases hn : n.created? <;> simp [hn]

theorem createdBy_single_of_ne {r r' : Role} (h : r' ≠ r) (n : Note) :
    createdBy r [(r', n)] = [] := by
  rw [createdBy, notesOf_single_of_ne n h]
  rfl

end Log

/-- What a run asks for creates an execution of a workflow. -/
def RunRequest.Creates (request : RunRequest) (workflowId : Uuid) (row : ExecutionRow) : Prop :=
  ∃ fresh now, row = (request.toNew workflowId).toRow fresh now

namespace Scene

variable {β : Type} {c : Call H β} {reply : β}

theorem Answers.log_eq (h : Answers r β c s reply s') :
    s'.log = s.log ++ (c.note? reply).toList.map fun n => (r, n) := by
  cases hn : c.note? reply with
  | none => rw [(h.alike hn).log, Option.toList_none, List.map_nil, List.append_nil]
  | some n => exact (h.noted hn).log

/-- The owner has created what it creates by calls of its own, and nothing else. -/
theorem Answers.createdBy_owner (h : Answers r β c s reply s')
    (hc : r = .owner → (c.note? reply).bind Note.created? = none) :
    s'.log.createdBy .owner = s.log.createdBy .owner := by
  rw [h.log_eq, Log.createdBy_append]
  cases hn : c.note? reply with
  | none => exact List.append_nil _
  | some n =>
      rw [Option.toList_some, List.map_singleton]
      by_cases hr : r = .owner
      · have hnone : n.created? = none := by simpa [hn] using hc hr
        rw [hr, Log.createdBy_single_self, hnone, Option.toList_none, List.append_nil]
      · rw [Log.createdBy_single_of_ne hr, List.append_nil]

/-- The row of an execution is there, and its state can be read. -/
def Reads (id : Uuid) (s : Scene) : Prop :=
  ∃ row status, s.memory.execution? id = some row ∧ row.state = .ok status

/-- No call of anyone makes a row unreadable. -/
theorem Answers.reads (h : Answers r β c s reply s') (hs : s.Reads id) : s'.Reads id := by
  obtain ⟨row, status, hrow, hstate⟩ := hs
  cases hn : c.note? reply with
  | none => exact ⟨row, status, by rw [(h.alike hn).execution?, hrow], hstate⟩
  | some n =>
      rcases (h.noted hn).row hrow with ⟨-, hrow'⟩ | ⟨f, now, -, -, -, hrow'⟩
      · exact ⟨row, status, hrow', hstate⟩
      · exact ⟨_, f.status, hrow', row.finish_state f now⟩

theorem Reads.applied (hs : s.Reads id) {f : Finish} {reply : Except StoreError Bool}
    (h : s.Noted r (.finished id f reply) s') : ∃ applied, reply = .ok applied := by
  obtain ⟨row, status, hrow, hstate⟩ := hs
  obtain ⟨-, ⟨rfl, -⟩ | ⟨rfl, -⟩ | ⟨-, e, row', -, hrow', herror⟩⟩ := h.effect
  · exact ⟨true, rfl⟩
  · exact ⟨false, rfl⟩
  · obtain rfl : row = row' := Option.some.inj (hrow.symm.trans hrow')
    rw [hstate] at herror
    cases herror

theorem Reads.found (hs : s.Reads id) {reply : Except StoreError (Option ExecutionRow)}
    (h : s.Noted r (.found id reply) s') :
    ∃ row status, reply = .ok (some row) ∧ row.state = .ok status := by
  obtain ⟨row, status, hrow, hstate⟩ := hs
  obtain ⟨-, -, hreply⟩ := h.effect
  exact ⟨row, status, by rw [hreply, hrow], hstate⟩

end Scene

/-! ### Runs among anyone -/

/-- Anyone may call anything. -/
def anyone (H : Type) : Rules (Call H) Scene := ⟨Scene.Answers, fun _ _ _ _ => True⟩

theorem anyone_answers : (anyone H).answers = Scene.Answers := rfl

/-- What the owner knows while a run goes on: what it has created, and that the row of the execution
can be read. -/
structure Running (rows : List ExecutionRow) (id : Uuid) (s : Scene) : Prop where
  created : s.log.createdBy .owner = rows
  reads : s.Reads id

theorem stable_created (hr : r.Walks) (rows : List ExecutionRow) :
    (anyone H).Stable r fun s => s.log.createdBy .owner = rows := by
  rintro other hother s s' ⟨β, c, reply, -, hanswer⟩ h
  exact (hanswer.createdBy_owner fun howner => absurd howner (hr.meets hother)).trans h

namespace Running

variable {α β : Type} {Q : α → Scene → Prop} {X : String → Scene → Prop}

theorem answered {c : Call H β} {reply : β} (h : Running rows id s)
    (hanswer : Scene.Answers r β c s reply s')
    (hc : r = .owner → (c.note? reply).bind Note.created? = none) : Running rows id s' :=
  ⟨(hanswer.createdBy_owner hc).trans h.created, hanswer.reads h.reads⟩

theorem stable (hr : r.Walks) : (anyone H).Stable r (Running rows id) := by
  rintro other hother s s' ⟨β, c, reply, -, hanswer⟩ h
  exact h.answered hanswer fun howner => absurd howner (hr.meets hother)

theorem done {a : α} (h : Running rows id s) (hQ : ∀ t, Running rows id t → Q a t) :
    Ensures (anyone H) .owner (.done a) Q X s :=
  fun _ ht => hQ _ ((stable (.inl rfl)).meanwhile ht h)

theorem ask {c : Call H β} {next : β → Proc (Call H) α} (h : Running rows id s)
    (hc : ∀ reply, (c.note? reply).bind Note.created? = none)
    (hnext : ∀ reply t t', Running rows id t → Scene.Answers .owner β c t reply t' →
      Running rows id t' → Ensures (anyone H) .owner (next reply) Q X t') :
    Ensures (anyone H) .owner (.ask c next) Q X s := by
  intro t ht
  have hrunning := (stable (.inl rfl)).meanwhile ht h
  exact ⟨trivial, fun reply t' hanswer => hnext reply t t' hrunning hanswer
    (hrunning.answered hanswer fun _ => hc reply)⟩

theorem askRow {next : Except StoreError (Option ExecutionRow) → Proc (Call H) α}
    (h : Running rows id s)
    (hnext : ∀ row status t, row.state = .ok status → Running rows id t →
      Ensures (anyone H) .owner (next (.ok (some row))) Q X t) :
    Ensures (anyone H) .owner (Proc.askStore (.getExecution id) next) Q X s := by
  refine h.ask (fun _ => rfl) fun reply t t' ht hanswer ht' => ?_
  obtain ⟨row, status, rfl, hstate⟩ := ht.reads.found (hanswer.noted rfl)
  exact hnext row status t' hstate ht'

theorem askFinish {f : Finish} {next : Except StoreError Bool → Proc (Call H) α}
    (h : Running rows id s)
    (hnext : ∀ applied t, Running rows id t →
      Ensures (anyone H) .owner (next (.ok applied)) Q X t) :
    Ensures (anyone H) .owner (Proc.askStore (.finishExecution id f) next) Q X s := by
  refine h.ask (fun _ => rfl) fun reply t t' ht hanswer ht' => ?_
  obtain ⟨applied, rfl⟩ := ht.reads.applied (hanswer.noted rfl)
  exact hnext applied t' ht'

theorem askClock {next : Time.Instant → Proc (Call H) α} (h : Running rows id s)
    (hnext : ∀ now t, Running rows id t → Ensures (anyone H) .owner (next now) Q X t) :
    Ensures (anyone H) .owner (Proc.askClock next) Q X s :=
  h.ask (fun _ => rfl) fun now _ t _ _ ht => hnext now t ht

/-- A run gives a walk its ground, whatever the handlers are. -/
theorem ground (registry : Registry H) (rows : List ExecutionRow) (id wid : Uuid)
    (nodes : List Node) :
    Ground (anyone H) registry id wid nodes (Running rows id) fun _ => True where
  stable r hr := stable hr
  told r _ := Rules.stable_true r
  quiet r hr β c hc s hs := by
    refine ⟨trivial, fun reply s' hanswer => ⟨hs.answered hanswer fun _ => ?_, fun _ => trivial⟩⟩
    rw [hc.unnoted reply]
    rfl
  poll r hr s hs := by
    refine ⟨trivial, fun reply s' hanswer => ⟨?_, fun _ => trivial, fun _ => trivial⟩⟩
    rw [anyone_answers] at hanswer
    exact hs.answered hanswer fun _ => rfl
  handler name version handler _ context input s _ :=
    Ensures.of_guest (fun _ _ _ => trivial) (handler context input) s

end Running

namespace Engine

variable {engine : Engine H} {d : Definition} {c : Context} {X : String → Scene → Prop}

/-- A run goes on, and reports an outcome of its execution. -/
def Outcomes (rows : List ExecutionRow) (id : Uuid) (report : Except RunError Outcome) (s : Scene) :
    Prop :=
  Running rows id s ∧ ∃ o, report = .ok o ∧ o.executionId = id

theorem settled_reads (applied : Bool) (status : ExecutionStatus) (h : Running rows id s) :
    Ensures (anyone H) .owner (settled id applied status)
      (fun state t => Running rows id t ∧ ∃ last, state = .ok last) X s := by
  cases applied with
  | true => exact h.done fun t ht => ⟨ht, status, rfl⟩
  | false =>
      refine h.askRow fun row last t hstate ht => ht.done fun u hu => ⟨hu, last, ?_⟩
      simp only [hstate]
      rfl

theorem stamp_runs (applied : Bool) (status : ExecutionStatus) (h : Running rows id s) :
    Ensures (anyone H) .owner (stamp wid applied status) (fun _ t => Running rows id t) X s := by
  rw [stamp]
  split
  · refine h.askClock fun now t ht => ?_
    exact ht.ask (fun _ => rfl) fun _ _ u _ _ hu => hu.done fun _ hv => hv
  · exact h.done fun _ ht => ht

theorem conclude_reports (visited : Visited) (stopped : Bool) (startedAt : Time.Instant)
    (h : Running rows id s) (hid : visited.context.executionId = id) :
    Ensures (anyone H) .owner (conclude visited stopped startedAt) (Outcomes rows id) X s := by
  rw [conclude]
  simp only [hid]
  refine h.askFinish fun applied t ht => ?_
  refine Ensures.andThen (settled_reads applied _ ht) fun state u hu => ?_
  obtain ⟨hu, status, rfl⟩ := hu
  refine Ensures.andThen (stamp_runs applied status hu) fun _ v hv => ?_
  exact hv.askClock fun finishedAt _ hw => hw.done fun _ hw' => ⟨hw', _, rfl, hid⟩

theorem walk_reports (startedAt : Time.Instant) (h : Running rows id s) (hc : c.IsOf id wid) :
    Ensures (anyone H) .owner (engine.walk d c startedAt) (Outcomes rows id)
      (fun _ t => Running rows id t) s := by
  have G : Ground (anyone H) engine.adapter.registry id wid d.nodes (Running rows id) fun _ =>
      True := Running.ground _ rows id wid d.nodes
  have hstart := Walk.start_ensures ⟨d, engine.adapter, engine.config.maxItems⟩ G (.inl rfl) hc h
  refine Ensures.andThen hstart fun visited t ht => ?_
  obtain ⟨hknown, hcontext⟩ := ht
  cases visited.ending with
  | ok last => exact conclude_reports visited false startedAt hknown.1 hcontext.1
  | error failure =>
      simp only [hc.1]
      exact G.askStopped (.inl rfl) hknown fun stopped u hu =>
        conclude_reports visited stopped startedAt hu.1 hcontext.1

theorem perform_reports (h : Running rows id s) (hc : c.IsOf id wid) :
    Ensures (anyone H) .owner (engine.perform d c) (Outcomes rows id)
      (fun _ t => Running rows id t) s := by
  refine h.askClock fun startedAt t ht => ?_
  simp only [hc.1]
  refine ht.askRow fun row status u hstate hu => ?_
  simp only [hstate]
  split
  · exact hu.askClock fun finishedAt v hv => hv.done fun w hw => ⟨hw, _, rfl, hc.1⟩
  · exact walk_reports startedAt hu hc

theorem closing_reports (h : Running rows id s) (hc : c.IsOf id wid) :
    Ensures (anyone H) .owner ((engine.perform d c).closing (.here (.unregister id)))
      (Outcomes rows id) (fun _ t => Running rows id t) s := by
  refine ⟨_, _, perform_reports h hc, fun t => ⟨?_, ?_⟩⟩
  · rintro report ⟨ht, o, hreport⟩
    exact ht.ask (fun _ => rfl) fun _ _ u _ _ hu => hu.done fun v hv => ⟨hv, o, hreport⟩
  · intro message ht
    refine ht.ask (fun _ => rfl) fun _ _ u _ _ hu v hv => ?_
    exact (Running.stable (.inl rfl)).meanwhile hv hu

/-- What a run reports of the execution that it has created: an outcome, or the panic of a handler
by which it was broken off. -/
inductive Reports (registry : Registry H) (id : Uuid) : Except RunError Outcome → Prop where
  | outcome {o : Outcome} : o.executionId = id → Reports registry id (.ok o)
  | aborted {message : String} :
      registry.MayPanic message → Reports registry id (.error (.aborted id (panicText message)))

theorem begun_reports (request : RunRequest) (h : Running rows row.id s) :
    Ensures (anyone H) .owner (engine.begun d request row)
      (fun report t => t.log.createdBy .owner = rows ∧
        Reports engine.adapter.registry row.id report) X s := by
  refine h.ask (fun _ => rfl) fun _ _ t _ _ ht => ?_
  refine ⟨.inl rfl, _, _, (closing_reports ht ⟨rfl, rfl⟩).mayPanic, fun u => ⟨?_, ?_⟩⟩
  · rintro report ⟨hu, o, rfl, hid⟩
    exact hu.done fun v hv => ⟨hv.created, .outcome hid⟩
  · rintro message ⟨hu, hpanic⟩
    have hhandler := mayPanic_of_perform (mayPanic_of_closing hpanic)
    exact hu.askFinish fun applied v hv => hv.done fun w hw => ⟨hw.created, .aborted hhandler⟩

/-- The law of a run among anyone: it creates one execution, as it is asked to, and reports an
outcome of it or that it was broken off. -/
theorem run_reports (request : RunRequest) (h : s.log.createdBy .owner = rows) :
    Ensures (anyone H) .owner (engine.run d request)
      (fun report t => ∃ row, t.log.createdBy .owner = rows ++ [row] ∧
        request.Creates d.id row ∧ Reports engine.adapter.registry row.id report) X s := by
  rw [run_eq]
  intro t ht
  have hcreated := (stable_created (.inl rfl) rows).meanwhile ht h
  refine ⟨trivial, fun reply t' hanswer => ?_⟩
  rw [anyone_answers] at hanswer
  have hlog := hanswer.log_eq
  obtain ⟨⟨fresh, now, hunused, hmemory⟩, -, -⟩ := hanswer
  simp only [Memory.answer, Prod.mk.injEq] at hmemory
  obtain ⟨rfl, hmemory⟩ := hmemory
  let row := (request.toNew d.id).toRow fresh now
  have hrunning : Running (rows ++ [row]) row.id t' := by
    refine ⟨?_, row, .running, ?_, NewExecution.toRow_state _ _ _⟩
    · rw [hlog, Log.createdBy_append, hcreated]
      exact congrArg (rows ++ ·) (Log.createdBy_single_self _ _)
    · have hnone : t.memory.execution? row.id = none := hunused.1
      rw [← hmemory, Memory.execution?_addExecution, hnone]
      simp [row]
  exact (begun_reports request hrunning).mono
    (fun report u hu => ⟨row, hu.1, ⟨fresh, now, rfl⟩, hu.2⟩) fun _ _ hx => hx

end Engine

end Workflow
