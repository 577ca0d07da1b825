import Workflow.Proofs.Run.Owner

/-!
# What a run keeps up

Once its execution is created, the calls that a run makes on its own account are few: it reads and
ends the execution, stamps its workflow, looks at the clock, and registers and unregisters.  A fact
that these calls keep, and on which a walk can stand, is kept by all of the run.  The laws follow
the functions of a run one by one, from the end of a run to all of it.
-/

namespace Workflow

open Proc

universe u

variable {H α β : Type} {S : Type u} {R : Rules (Call H) S} {id wid : Uuid} {nodes : List Node}
  {F : S → Prop} {X : String → S → Prop} {engine : Engine H} {d : Definition} {c : Context}

/-- A call that the run of an execution of a workflow makes on its own account. -/
inductive Call.OfRun (id wid : Uuid) : {β : Type} → Call H β → Prop where
  | clock : OfRun id wid .clock
  | registered : OfRun id wid (.here (.register id))
  | unregistered : OfRun id wid (.here (.unregister id))
  | polled : OfRun id wid (.here (.isStopped id))
  | found : OfRun id wid (.store (.getExecution id))
  | finished (f : Finish) : OfRun id wid (.store (.finishExecution id f))
  | stamped (instant : Time.Instant) : OfRun id wid (.store (.touchLastRun wid instant))

/-- A fact that the owner of a run can keep up: a walk stands on it, and the other calls of the run
may be made and keep it. -/
structure Upkeep (R : Rules (Call H) S) (registry : Registry H) (id wid : Uuid) (nodes : List Node)
    (F : S → Prop) : Prop where
  ground : Ground R registry id wid nodes F fun _ => True
  call : ∀ (β : Type) (c : Call H β), c.OfRun id wid → ∀ s, F s → R.permits .owner β c s ∧
    ∀ reply s', R.answers .owner β c s reply s' → F s'

/-- A process keeps a fact that its owner begins with. -/
def Maintains (R : Rules (Call H) S) (F : S → Prop) (X : String → S → Prop) (p : Proc (Call H) α) :
    Prop := ∀ s, F s → Ensures R .owner p (fun _ t => F t) X s

theorem Maintains.bind {p : Proc (Call H) β} {f : β → Proc (Call H) α} (hp : Maintains R F X p)
    (hf : ∀ b, Maintains R F X (f b)) : Maintains R F X (p.bind f) :=
  fun s hs => Ensures.andThen (hp s hs) hf

namespace Upkeep

variable (U : Upkeep R engine.adapter.registry id wid d.nodes F)
include U

theorem stable : R.Stable .owner F := U.ground.stable .owner (.inl rfl)

theorem done (a : α) : Maintains R F X (.done a : Proc (Call H) α) :=
  fun _ hs _ ht => U.stable.meanwhile ht hs

theorem ask {c : Call H β} {next : β → Proc (Call H) α} (hc : c.OfRun id wid)
    (hnext : ∀ reply, Maintains R F X (next reply)) : Maintains R F X (.ask c next) := by
  intro s hs t ht
  obtain ⟨hperm, hanswer⟩ := U.call β c hc t (U.stable.meanwhile ht hs)
  exact ⟨hperm, fun reply t' hreply => hnext reply t' (hanswer reply t' hreply)⟩

theorem settled (applied : Bool) (status : ExecutionStatus) :
    Maintains R F X (Engine.settled id applied status) := by
  rw [Engine.settled]
  split
  · exact U.done _
  · exact U.ask .found fun _ => U.done _

theorem stamp (applied : Bool) (status : ExecutionStatus) :
    Maintains R F X (Engine.stamp wid applied status) := by
  rw [Engine.stamp]
  split
  · exact U.ask .clock fun now => U.ask (.stamped now) fun _ => U.done ()
  · exact U.done ()

theorem conclude {visited : Visited} (hvisited : visited.context.IsOf id wid) (stopped : Bool)
    (startedAt : Time.Instant) :
    Maintains R F X (Engine.conclude visited stopped startedAt) := by
  obtain ⟨hid, hwid⟩ := hvisited
  simp only [Engine.conclude, hid, hwid]
  refine U.ask (.finished _) fun finished => ?_
  cases finished with
  | error e => exact U.done _
  | ok applied =>
      refine .bind (U.settled applied _) fun state => ?_
      cases state with
      | error e => exact U.done _
      | ok status =>
          refine .bind (U.stamp applied status) fun _ => ?_
          exact U.ask .clock fun finishedAt => U.done _

/-- A walk may panic, but then its owner knows no less. -/
theorem walk (hc : c.IsOf id wid) (startedAt : Time.Instant) :
    Maintains R F (fun _ t => F t) (engine.walk d c startedAt) := by
  intro s hs
  have hstart := Walk.start_ensures ⟨d, engine.adapter, engine.config.maxItems⟩ U.ground (.inl rfl)
    hc hs
  refine Ensures.andThen hstart fun visited t ht => ?_
  obtain ⟨hknown, hvisited⟩ := ht
  cases visited.ending with
  | ok last => exact U.conclude hvisited false startedAt t hknown.1
  | error failure =>
      simp only [hc.1]
      exact U.ask .polled (fun stopped => U.conclude hvisited stopped startedAt) t hknown.1

theorem perform (hc : c.IsOf id wid) :
    Maintains R F (fun _ t => F t) (engine.perform d c) := by
  rw [Engine.perform]
  refine U.ask .clock fun startedAt => ?_
  rw [hc.1]
  refine U.ask .found fun found => ?_
  obtain e | _ | row := found
  · exact U.done _
  · exact U.walk hc startedAt
  · simp only
    cases row.state with
    | error e => exact U.done _
    | ok status =>
        simp only
        split
        · exact U.ask .clock fun finishedAt => U.done _
        · exact U.walk hc startedAt

theorem closing (hc : c.IsOf id wid) :
    Maintains R F (fun _ t => F t) ((engine.perform d c).closing (.here (.unregister id))) := by
  intro s hs
  refine ⟨_, _, U.perform hc s hs, fun t => ⟨fun report ht => ?_, fun message ht u hu => ?_⟩⟩
  · exact U.ask .unregistered (fun _ => U.done report) t ht
  · obtain ⟨hperm, hanswer⟩ := U.call Unit _ .unregistered u (U.stable.meanwhile hu ht)
    exact ⟨hperm, fun reply u' hreply v hv => U.stable.meanwhile hv (hanswer reply u' hreply)⟩

theorem abort (message : String) : Maintains R F X (Engine.abort id message) :=
  U.ask (.finished _) fun _ => U.done _

end Upkeep

/-- Once it has created its execution, a run keeps up what its owner knows; it does not panic. -/
theorem Upkeep.begun {row : ExecutionRow}
    (U : Upkeep R engine.adapter.registry row.id d.id d.nodes F) (request : RunRequest) :
    Maintains R F X (engine.begun d request row) := by
  refine U.ask .registered fun _ s hs => ?_
  have hclosing : Maintains R F (fun _ t => F t) ((engine.perform d
      (.start row.id d.id row.startedAt request.payload (request.bindingsOver d))).closing
        (.here (.unregister row.id))) := U.closing ⟨rfl, rfl⟩
  refine ⟨.inl rfl, _, _, hclosing s hs, fun t => ⟨fun report ht => ?_, fun message ht => ?_⟩⟩
  · exact U.done report t ht
  · exact U.abort message t ht

end Workflow
