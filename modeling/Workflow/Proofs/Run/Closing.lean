import Workflow.Proofs.Process.Schedule
import Workflow.Proofs.Run.Owner
import Workflow.World

/-!
# Executions that are left running

A store may fail at any call.  A run whose execution was created orders its end, or reads that it
has ended already, with one exception: when the row of the execution cannot be read at the start,
the run gives up at once, and nobody else knows that the execution is to be ended.
-/

namespace Workflow

open Proc

universe u

variable {H : Type} {σ : Type u} {A : Role → (β : Type) → Call H β → σ → β → σ → Prop}
  {id wid : Uuid} {l : List Note} {r : Role} {s s' : σ × Log}

/-! ### Any store -/

/-- What calls are answered, with the notes of them. -/
def Logged (A : Role → (β : Type) → Call H β → σ → β → σ → Prop) (r : Role) (β : Type)
    (c : Call H β) (s : σ × Log) (reply : β) (s' : σ × Log) : Prop :=
  A r β c s.1 reply s'.1 ∧ s'.2 = s.2 ++ (c.note? reply).toList.map fun n => (r, n)

/-- Everything may be called. -/
def unruled (A : Role → (β : Type) → Call H β → σ → β → σ → Prop) : Rules (Call H) (σ × Log) :=
  ⟨Logged A, fun _ _ _ _ => True⟩

/-- The notes of the owner. -/
def Noting (l : List Note) (s : σ × Log) : Prop := s.2.notesOf .owner = l

theorem Logged.noting {β : Type} {c : Call H β} {reply : β} (h : Logged A .owner β c s reply s')
    (hs : Noting l s) : Noting (l ++ (c.note? reply).toList) s' := by
  rw [Noting, h.2, Log.notesOf_append, hs]
  cases c.note? reply with
  | none => rfl
  | some n => exact congrArg (l ++ ·) (Log.notesOf_single_self _ _)

namespace Noting

theorem moves (hr : r ≠ .owner) (h : Noting l s) (hs : (unruled A).Moves r s s') :
    Noting l s' := by
  obtain ⟨β, c, reply, -, -, hlog⟩ := hs
  rw [Noting, hlog, Log.notesOf_append, h]
  cases c.note? reply with
  | none => exact List.append_nil l
  | some n => exact (congrArg (l ++ ·) (Log.notesOf_single_of_ne n hr)).trans (List.append_nil l)

theorem stable (hr : r.Walks) : (unruled A).Stable r (Noting l) := by
  intro other hother s s' hs h
  refine h.moves ?_ hs
  rcases hr with rfl | rfl <;> exact hother

variable {α β : Type} {Q : α → σ × Log → Prop} {X : String → σ × Log → Prop}

theorem done {a : α} (h : Noting l s) (hQ : ∀ t, Noting l t → Q a t) :
    Ensures (unruled A) .owner (.done a) Q X s :=
  fun _ ht => hQ _ ((stable (.inl rfl)).meanwhile ht h)

theorem ask {c : Call H β} {next : β → Proc (Call H) α} (h : Noting l s)
    (hnext : ∀ reply t, Noting (l ++ (c.note? reply).toList) t →
      Ensures (unruled A) .owner (next reply) Q X t) :
    Ensures (unruled A) .owner (.ask c next) Q X s := by
  intro t ht
  have hnoting := (stable (.inl rfl)).meanwhile ht h
  exact ⟨trivial, fun reply t' hanswer => hnext reply t' (hanswer.noting hnoting)⟩

theorem askClock {next : Time.Instant → Proc (Call H) α} (h : Noting l s)
    (hnext : ∀ now t, Noting l t → Ensures (unruled A) .owner (next now) Q X t) :
    Ensures (unruled A) .owner (Proc.askClock next) Q X s :=
  h.ask fun now t ht => hnext now t (by simpa [Call.note?] using ht)

theorem ground (registry : Registry H) (id wid : Uuid) (nodes : List Node) (l : List Note) :
    Ground (unruled A) registry id wid nodes (Noting l) fun _ => True where
  stable r hr := stable hr
  told r _ := Rules.stable_true r
  quiet r hr β c hc s hs := by
    refine ⟨trivial, fun reply s' hanswer => ⟨?_, fun _ => trivial⟩⟩
    have hlog : s'.2 = s.2 := by simpa [hc.unnoted reply] using hanswer.2
    rwa [Noting, hlog]
  poll r hr s hs := by
    refine ⟨trivial, fun reply s' hanswer => ⟨?_, fun _ => trivial, fun _ => trivial⟩⟩
    have hlog : s'.2 = s.2 := by simpa [Call.note?, LocalCall.note?] using hanswer.2
    rwa [Noting, hlog]
  handler name version handler _ context input s _ :=
    Ensures.of_guest (fun _ _ _ => trivial) (handler context input) s

end Noting

/-- The notes of the owner begin in some way. -/
def Begun (l : List Note) (s : σ × Log) : Prop := ∃ more, Noting (l ++ more) s

namespace Begun

variable {α β : Type} {Q : α → σ × Log → Prop} {X : String → σ × Log → Prop}

theorem done {a : α} (h : Begun l s) (hQ : ∀ t, Begun l t → Q a t) :
    Ensures (unruled A) .owner (.done a) Q X s := by
  obtain ⟨more, hnoting⟩ := h
  exact hnoting.done fun t ht => hQ t ⟨more, ht⟩

theorem ask {c : Call H β} {next : β → Proc (Call H) α} (h : Begun l s)
    (hnext : ∀ reply t, Begun l t → Ensures (unruled A) .owner (next reply) Q X t) :
    Ensures (unruled A) .owner (.ask c next) Q X s := by
  obtain ⟨more, hnoting⟩ := h
  refine hnoting.ask fun reply t ht => hnext reply t ⟨more ++ (c.note? reply).toList, ?_⟩
  rwa [← List.append_assoc]

end Begun

/-! ### The end of a run -/

/-- What was found when a row was read can be understood: there is no row, or it has a state. -/
def IsReadable : Except StoreError (Option ExecutionRow) → Prop
  | .error _ => False
  | .ok none => True
  | .ok (some row) => ∃ status, row.state = .ok status

/-- What was found is the row of an execution that has ended. -/
def IsEnded : Except StoreError (Option ExecutionRow) → Prop
  | .ok (some row) => ∃ status, row.state = .ok status ∧ status.isTerminal = true
  | _ => False

theorem IsEnded.isReadable {reply : Except StoreError (Option ExecutionRow)}
    (h : IsEnded reply) : IsReadable reply := by
  obtain e | _ | row := reply
  · exact h
  · trivial
  · obtain ⟨status, hstate, -⟩ := h
    exact ⟨status, hstate⟩

/-- A note of an order to end an execution. -/
def Note.Orders (id : Uuid) : Note → Prop
  | .finished x _ _ => x = id
  | _ => False

/-- Somebody has ordered the end of an execution, or its run has read that it has ended. -/
def Closed (id : Uuid) (log : Log) : Prop :=
  (∃ e ∈ log, e.2.Orders id) ∨
    ∃ reply, (Role.owner, Note.found id reply) ∈ log ∧ IsEnded reply

/-- How a run ends that has read the row of its execution: it gives up if that could not be
understood, with some last notes, and otherwise the execution has ended or its end was ordered. -/
def Performed (id : Uuid) (l last : List Note) (report : Except RunError Outcome) (s : σ × Log) :
    Prop :=
  ∃ reply rest, Noting (l ++ .found id reply :: rest) s ∧
    ((IsReadable reply ∧ (IsEnded reply ∨ ∃ n ∈ rest, n.Orders id)) ∨
      (¬IsReadable reply ∧ rest = last ∧ ∃ e, report = .error (.store e)))

namespace Engine

variable {engine : Engine H} {d : Definition} {c : Context} {X : String → σ × Log → Prop}

theorem settled_begun (applied : Bool) (status : ExecutionStatus) (hs : Begun l s) :
    Ensures (unruled A) .owner (settled id applied status) (fun _ t => Begun l t) X s := by
  cases applied with
  | true => exact hs.done fun _ ht => ht
  | false => exact hs.ask fun reply t ht => ht.done fun _ hu => hu

theorem stamp_begun (applied : Bool) (status : ExecutionStatus) (hs : Begun l s) :
    Ensures (unruled A) .owner (stamp wid applied status) (fun _ t => Begun l t) X s := by
  rw [stamp]
  split
  · exact hs.ask fun now t ht => ht.ask fun _ u hu => hu.done fun _ hv => hv
  · exact hs.done fun _ ht => ht

/-- After a walk the end of the execution is ordered, whatever comes of the order. -/
theorem conclude_orders (visited : Visited) (stopped : Bool) (startedAt : Time.Instant)
    (hs : Noting l s) (hid : visited.context.executionId = id) :
    Ensures (unruled A) .owner (conclude visited stopped startedAt)
      (fun _ t => ∃ f reply, Begun (l ++ [.finished id f reply]) t) X s := by
  rw [conclude]
  simp only [hid]
  apply hs.ask
  intro finished t ht
  have hbegun : Begun (l ++ [.finished id (visited.finish stopped) finished]) t :=
    ⟨[], by rwa [List.append_nil]⟩
  cases finished with
  | error e => exact hbegun.done fun u hu => ⟨_, _, hu⟩
  | ok applied =>
      apply Ensures.andThen (settled_begun applied _ hbegun)
      intro state u hu
      cases state with
      | error e => exact hu.done fun v hv => ⟨_, _, hv⟩
      | ok status =>
          apply Ensures.andThen (stamp_begun applied status hu)
          intro _ v hv
          exact hv.ask fun finishedAt _ hw => hw.done fun _ hw' => ⟨_, _, hw'⟩

theorem walk_orders (startedAt : Time.Instant) (hs : Noting l s) (hc : c.IsOf id wid) :
    Ensures (unruled A) .owner (engine.walk d c startedAt)
      (fun _ t => ∃ f reply, Begun (l ++ [.finished id f reply]) t) (fun _ t => Noting l t) s := by
  have G : Ground (unruled A) engine.adapter.registry id wid d.nodes (Noting l) fun _ => True :=
    Noting.ground _ id wid d.nodes l
  refine Ensures.andThen (Walk.start_ensures ⟨d, engine.adapter, engine.config.maxItems⟩ G
    (.inl rfl) hc hs) fun visited t ht => ?_
  obtain ⟨hknown, hcontext⟩ := ht
  cases visited.ending with
  | ok last => exact conclude_orders visited false startedAt hknown.1 hcontext.1
  | error failure =>
      simp only [hc.1]
      exact G.askStopped (.inl rfl) hknown fun stopped u hu =>
        conclude_orders visited stopped startedAt hu.1 hcontext.1

/-- A run orders the end of its execution, or gives up when it cannot read the row at the start. -/
theorem perform_performed (hs : Noting l s) (hc : c.IsOf id wid) :
    Ensures (unruled A) .owner (engine.perform d c) (Performed id l [])
      (fun _ t => ∃ reply, IsReadable reply ∧ Noting (l ++ [.found id reply]) t) s := by
  have hwalk : ∀ reply startedAt t, IsReadable reply → Noting (l ++ [.found id reply]) t →
      Ensures (unruled A) .owner (engine.walk d c startedAt) (Performed id l [])
        (fun _ t => ∃ reply, IsReadable reply ∧ Noting (l ++ [.found id reply]) t) t := by
    intro reply startedAt t hreadable ht
    refine (walk_orders startedAt ht hc).mono ?_ fun m u hu => ⟨reply, hreadable, hu⟩
    rintro report u ⟨f, finished, more, hu⟩
    refine ⟨reply, .finished id f finished :: more, by simpa using hu, .inl ⟨hreadable, .inr ?_⟩⟩
    exact ⟨_, List.mem_cons_self, rfl⟩
  apply hs.askClock
  intro startedAt t ht
  simp only [hc.1]
  apply ht.ask
  intro found u hu
  obtain e | _ | row := found
  · exact hu.done fun v hv => ⟨_, [], hv, .inr ⟨not_false, rfl, e, rfl⟩⟩
  · exact hwalk (.ok none) startedAt u trivial hu
  · simp only
    cases hstate : row.state with
    | error e =>
        have hunreadable : ¬IsReadable (.ok (some row)) := by
          rintro ⟨status, hstatus⟩
          rw [hstate] at hstatus
          cases hstatus
        exact hu.done fun v hv => ⟨_, [], hv, .inr ⟨hunreadable, rfl, e, rfl⟩⟩
    | ok status =>
        simp only
        split
        · next hterm =>
            refine hu.askClock fun finishedAt v hv => hv.done fun w hw => ?_
            exact ⟨_, [], hw, .inl ⟨⟨status, hstate⟩, .inl ⟨status, hstate, hterm⟩⟩⟩
        · exact hwalk (.ok (some row)) startedAt u ⟨status, hstate⟩ hu

theorem closing_performed (hs : Noting l s) (hc : c.IsOf id wid) :
    Ensures (unruled A) .owner ((engine.perform d c).closing (.here (.unregister id)))
      (Performed id l [.unregistered id])
      (fun _ t => ∃ reply rest, IsReadable reply ∧ Noting (l ++ .found id reply :: rest) t) s := by
  refine ⟨_, _, perform_performed hs hc, fun t => ⟨?_, ?_⟩⟩
  · rintro report ⟨reply, rest, ht, hcase⟩
    refine ht.ask fun _ u hu => Noting.done hu fun v hv => ?_
    refine ⟨reply, rest ++ [.unregistered id], by simpa [Call.note?, LocalCall.note?] using hv, ?_⟩
    rcases hcase with ⟨hreadable, hcase⟩ | ⟨hunreadable, rfl, hreport⟩
    · refine .inl ⟨hreadable, hcase.imp_right ?_⟩
      rintro ⟨n, hn, horders⟩
      exact ⟨n, List.mem_append_left _ hn, horders⟩
    · exact .inr ⟨hunreadable, rfl, hreport⟩
  · rintro m ⟨reply, hreadable, ht⟩
    refine ht.ask fun _ u hu v hv => ⟨reply, [.unregistered id], hreadable, ?_⟩
    have hlast := (Noting.stable (.inl rfl)).meanwhile hv hu
    simpa [Call.note?, LocalCall.note?] using hlast

theorem begun_performed (request : RunRequest) (row : ExecutionRow) (hs : Noting l s) :
    Ensures (unruled A) .owner (engine.begun d request row)
      (Performed row.id (l ++ [.registered row.id]) [.unregistered row.id]) X s := by
  apply hs.ask
  intro _ t ht
  refine ⟨.inl rfl, _, _, closing_performed ht ⟨rfl, rfl⟩, fun u => ⟨?_, ?_⟩⟩
  · rintro report ⟨reply, rest, hu, hcase⟩
    exact hu.done fun v hv => ⟨reply, rest, hv, hcase⟩
  · rintro m ⟨reply, rest, hreadable, hu⟩
    refine Noting.ask hu fun finished v hv => hv.done fun w hw => ?_
    let n : Note := .finished row.id ⟨.failed, none, some (panicText m)⟩ finished
    refine ⟨reply, rest ++ [n], ?_, .inl ⟨hreadable, .inr ⟨n, ?_, rfl⟩⟩⟩
    · rwa [List.append_assoc, List.cons_append] at hw
    · exact List.mem_append_right _ (List.mem_singleton_self n)

/-- How a run ends: without an execution, or as is said of one that was created. -/
def Returned (report : Except RunError Outcome) (s : σ × Log) : Prop :=
  (∃ e, Noting [.created (.error e)] s) ∨
    ∃ row, Performed row.id [.created (.ok row), .registered row.id] [.unregistered row.id] report s

theorem run_returned (request : RunRequest) (hs : Noting [] s) :
    Ensures (unruled A) .owner (engine.run d request) Returned X s := by
  rw [run_eq]
  apply hs.ask
  intro created t ht
  cases created with
  | error e => exact ht.done fun u hu => .inl ⟨e, hu⟩
  | ok row =>
      refine Ensures.mono (begun_performed request row ht) (fun _ _ hu => ?_) fun _ _ hx => hx
      exact .inr ⟨row, hu⟩

end Engine

/-- When a run has returned, its execution is closed if its row was readable at the start, or if
somebody else has ordered its end. -/
theorem closed_iff {log : Log} {row : ExecutionRow} {rest : List Note}
    {reply : Except StoreError (Option ExecutionRow)}
    (hnotes : log.notesOf .owner =
      .created (.ok row) :: .registered row.id :: .found row.id reply :: rest)
    (hcase : (IsReadable reply ∧ (IsEnded reply ∨ ∃ n ∈ rest, n.Orders row.id)) ∨
      (¬IsReadable reply ∧ rest = [.unregistered row.id])) :
    Closed row.id log ↔
      IsReadable reply ∨ ∃ e ∈ log, e.1 ≠ Role.owner ∧ e.2.Orders row.id := by
  have hmem : ∀ n, (Role.owner, n) ∈ log ↔
      n = .created (.ok row) ∨ n = .registered row.id ∨ n = .found row.id reply ∨ n ∈ rest := by
    intro n
    rw [← Log.mem_notesOf, hnotes, List.mem_cons, List.mem_cons, List.mem_cons]
  constructor
  · intro hclosed
    rcases hcase with ⟨hreadable, -⟩ | ⟨hunreadable, rfl⟩
    · exact .inl hreadable
    · right
      rcases hclosed with ⟨⟨r, n⟩, he, horders⟩ | ⟨found, hfound, hended⟩
      · refine ⟨(r, n), he, ?_, horders⟩
        rintro rfl
        rw [hmem, List.mem_singleton] at he
        rcases he with rfl | rfl | rfl | rfl <;> exact horders
      · rw [hmem] at hfound
        obtain rfl : found = reply := by simpa using hfound
        exact absurd hended.isReadable hunreadable
  · rintro (hreadable | ⟨e, he, -, horders⟩)
    · rcases hcase with ⟨-, hended | ⟨n, hn, horders⟩⟩ | ⟨hunreadable, -⟩
      · exact .inr ⟨reply, (hmem _).mpr (.inr (.inr (.inl rfl))), hended⟩
      · exact .inl ⟨(.owner, n), (hmem _).mpr (.inr (.inr (.inr hn))), horders⟩
      · exact absurd hreadable hunreadable
    · exact .inl ⟨e, he, horders⟩

/-! ### Runs over any store -/

/-- At any time, somebody may ask to cancel any execution. -/
def Cancels (_ : σ × Log) (q : Proc (Call H) (Except RunError Bool)) : Prop :=
  ∃ id, q = Engine.cancel id

theorem cancels_ensures {q : Proc (Call H) (Except RunError Bool)} (hq : Cancels s q) :
    q.Ensures (unruled A) .request (fun _ _ => True) (fun _ _ => True) s := by
  obtain ⟨id, rfl⟩ := hq
  exact cancel_ensures_nothing id (fun _ => trivial) (fun _ => trivial) s

/-- An execution is left running by an error exactly if its row could not be read at the start.
Whatever the store answers and whatever the handlers do, a run does not panic; and when it has
returned after creating an execution, then its first notes are that it was created and registered
and what was found of it.  If that was readable, then the end of the execution was ordered or it
was read that it had ended.  If it was not, then the run has reported the failure of the store and
has done nothing else but to unregister, so that nobody has closed the execution unless somebody
else ordered its end. -/
theorem closed_iff_readable (engine : Engine H) (d : Definition) (request : RunRequest)
    {s₀ : σ × Log} (hlog : s₀.2 = [])
    {a : Pool (Call H) (σ × Log) (Except RunError Outcome) (Except RunError Bool)}
    (ha : Pool.Reaches (Logged A) Cancels ⟨engine.run d request, [], [], s₀⟩ a) :
    (∀ m, a.main ≠ .panic m) ∧
    ∀ row report, (a.state.2.notesOf .owner).head? = some (.created (.ok row)) →
      a.main = .done report →
      ∃ reply rest, a.state.2.notesOf .owner =
          .created (.ok row) :: .registered row.id :: .found row.id reply :: rest ∧
        (Closed row.id a.state.2 ↔
          IsReadable reply ∨ ∃ e ∈ a.state.2, e.1 ≠ .owner ∧ e.2.Orders row.id) ∧
        (¬IsReadable reply →
          rest = [.unregistered row.id] ∧ ∃ e, report = .error (.store e)) := by
  have hsound : Pool.Sound (unruled A) Engine.Returned (fun _ _ => False) (fun _ _ => True)
      (⟨engine.run d request, [], [], s₀⟩ : Pool (Call H) (σ × Log) _ (Except RunError Bool)) :=
    ⟨Engine.run_returned request (by rw [Noting, hlog]; rfl), by simp, by simp⟩
  obtain ⟨hmain, -⟩ := (hsound.reaches (I := fun _ => True) trivial ha (fun _ _ _ _ _ => trivial)
    fun s q _ hq => cancels_ensures hq).1
  refine ⟨fun m hm => ?_, fun row report hcreated hdone => ?_⟩
  · rw [hm] at hmain
    exact hmain _ (.refl _)
  rw [hdone] at hmain
  rcases hmain _ (.refl _) with ⟨e, hnotes⟩ | ⟨row', reply, rest, hnotes, hcase⟩
  · rw [hnotes] at hcreated
    simp at hcreated
  · rw [Noting, List.cons_append, List.cons_append, List.nil_append] at hnotes
    obtain rfl : row' = row := by simpa [hnotes] using hcreated
    refine ⟨reply, rest, hnotes, closed_iff hnotes (hcase.imp_right ?_), fun hunreadable => ?_⟩
    · exact fun h => ⟨h.1, h.2.1⟩
    · rcases hcase with ⟨hreadable, -⟩ | ⟨-, hrest, hreport⟩
      · exact absurd hreadable hunreadable
      · exact ⟨hrest, hreport⟩

/-! ### Worlds -/

/-- A world without the time that its clock shows. -/
def World.untimed {S : Type} (w : World S) : World S := { w with tick := 0 }

/-- What a world answers, whoever asks, and whatever its clock shows. -/
def Peers.Serves {S : Type} (p : Peers H S) (_ : Role) (β : Type) (c : Call H β) (s : World S)
    (reply : β) (s' : World S) : Prop :=
  ∃ w : World S, s = w.untimed ∧ (p.answer c w).1 = reply ∧ s' = (p.answer c w).2.untimed

theorem Peers.follows {S : Type} (p : Peers H S) :
    p.host.Follows (Logged p.Serves) fun w s => s.1 = w.untimed where
  answer r _ c w s hs :=
    ⟨((p.answer c w).2.untimed, s.2 ++ (c.note? (p.answer c w).1).toList.map fun n => (r, n)),
      ⟨⟨w, hs, rfl, rfl⟩, rfl⟩, rfl⟩
  advance _ _ _ hs := hs

/-- What is run in a world is one of the runs over its store. -/
theorem Peers.reaches_run {S α : Type} (p : Peers H S) (fuel : Nat) (q : Proc (Call H) α)
    (w : World S) :
    ∃ tasks s, Pool.Reaches (Logged p.Serves) Cancels ⟨q, [], [], (w.untimed, [])⟩
        ⟨(Proc.run p.host fuel q [] w).proc, tasks, [], s⟩ ∧
      s.1 = (Proc.run p.host fuel q [] w).world.untimed := by
  have hstart : Proc.Keeps ([] : List (Proc (Call H) Unit)) [] := ⟨[], .refl _, by simp⟩
  have hw : (w.untimed, ([] : Log)).1 = w.untimed := rfl
  apply (Pool.reaches_run p.follows fuel q hw hstart).imp
  intro tasks htasks
  exact htasks.imp fun s hs => ⟨hs.1, hs.2.1⟩

/-- A world whose store in memory fails when an execution is to be read. -/
def unreadableWorld : Peers Empty Unit where
  epoch := ⟨0, 0⟩
  fresh n := ⟨n⟩
  backing := .memory { Faults.none with failing := [("get_execution", .invalidStatus "disk full")] }
  exchange _ s := (none, s)
  custom h _ := nomatch h

/-- Whatever is run in a world in which executions cannot be read, it gives up and leaves its
execution running. -/
theorem exists_left_running (engine : Engine Empty) (d : Definition) (request : RunRequest) :
    ∃ (row : ExecutionRow) (a : Pool (Call Empty) (World Unit × Log) (Except RunError Outcome)
        (Except RunError Bool)),
      Pool.Reaches (Logged unreadableWorld.Serves) Cancels
        ⟨engine.run d request, [], [], (.start .empty (), [])⟩ a ∧
      a.main = .done (.error (.store (.invalidStatus "disk full"))) ∧
      a.state.1.memory.execution? row.id = some row ∧ row.state = .ok .running ∧
      a.state.2 = [(.owner, .created (.ok row)), (.owner, .registered row.id),
        (.owner, .found row.id (.error (.invalidStatus "disk full"))),
        (.owner, .unregistered row.id)] := by
  let row := (request.toNew d.id).toRow ⟨0⟩ (unreadableWorld.now (.start .empty ()))
  -- The world and the log after each call, and the failure of the one that reads the row.
  let e : StoreError := .invalidStatus "disk full"
  let w₁ : World Unit := ⟨Memory.empty.addExecution row, .empty, 0, 1, ()⟩
  let w₂ : World Unit := { w₁ with here := ⟨[], [row.id], []⟩ }
  let w₃ : World Unit := { w₂ with given := 2 }
  let w₄ : World Unit := { w₃ with here := .empty }
  let l₁ : Log := [(.owner, .created (.ok row))]
  let l₂ : Log := l₁ ++ [(.owner, .registered row.id)]
  let l₃ : Log := l₂ ++ [(.owner, .found row.id (.error e))]
  let l₄ : Log := l₃ ++ [(.owner, .unregistered row.id)]
  have hcreate : Logged unreadableWorld.Serves .owner _
      (.store (.createExecution (request.toNew d.id)) : Call Empty _) (.start .empty (), [])
      (.ok row) (w₁, l₁) := ⟨⟨.start .empty (), rfl, rfl, rfl⟩, rfl⟩
  have hregister : Logged unreadableWorld.Serves .owner _
      (.here (.register row.id) : Call Empty _) (w₁, l₁) () (w₂, l₂) :=
    ⟨⟨w₁, rfl, rfl, rfl⟩, rfl⟩
  have hclock : Logged unreadableWorld.Serves .owner _ (.clock : Call Empty _) (w₂, l₂)
      (unreadableWorld.now w₂) (w₂, l₂) := ⟨⟨w₂, rfl, rfl, rfl⟩, rfl⟩
  have hfound : Logged unreadableWorld.Serves .owner _
      (.store (.getExecution row.id) : Call Empty _) (w₂, l₂) (.error e) (w₃, l₃) :=
    ⟨⟨w₂, rfl, rfl, rfl⟩, rfl⟩
  have hunregister : Logged unreadableWorld.Serves .owner _
      (.here (.unregister row.id) : Call Empty _) (w₃, l₃) () (w₄, l₄) :=
    ⟨⟨w₃, rfl, rfl, rfl⟩, rfl⟩
  have hstart : Pool.Reaches (Logged unreadableWorld.Serves) Cancels
      (⟨engine.run d request, [], [], (.start .empty (), [])⟩ :
        Pool _ _ _ (Except RunError Bool)) ⟨engine.begun d request row, [], [], (w₁, l₁)⟩ :=
    .single (.main (.ask hcreate))
  have hgiven := ((((hstart.tail (.main (.ask hregister))).tail (.main .ownStarted)).tail
    (.main (.own (.attempt (.ask hclock))))).tail (.main (.own (.attempt (.ask hfound)))))
  have hover := ((hgiven.tail (.main (.own .attemptDone))).tail
    (.main (.own (.ask hunregister)))).tail (.main .ownDone)
  refine ⟨row, _, hover, rfl, ?_, NewExecution.toRow_state _ _ _, rfl⟩
  have hnone : Memory.empty.execution? row.id = none := rfl
  simp [w₄, w₃, w₂, w₁, Memory.execution?_addExecution, hnone]

/-- The run of an empty workflow in a world in which executions cannot be read. -/
theorem left_running_when_unreadable :
    ∃ (row : ExecutionRow) (a : Pool (Call Empty) (World Unit × Log) (Except RunError Outcome)
        (Except RunError Bool)),
      Pool.Reaches (Logged unreadableWorld.Serves) Cancels
        ⟨(Engine.create [] [] .standard).run (.create ⟨0⟩ "idle" .manual [] [])
            (.plain .manual .null), [], [], (.start .empty (), [])⟩ a ∧
      a.main = .done (.error (.store (.invalidStatus "disk full"))) ∧
      a.state.1.memory.execution? row.id = some row ∧ row.state = .ok .running ∧
      ¬Closed row.id a.state.2 := by
  obtain ⟨row, a, ha, hdone, hrow, hrunning, hlog⟩ := exists_left_running
    (.create [] [] .standard) (.create ⟨0⟩ "idle" .manual [] []) (.plain .manual .null)
  refine ⟨row, a, ha, hdone, hrow, hrunning, ?_⟩
  have hnotes : a.state.2.notesOf .owner = [.created (.ok row), .registered row.id,
      .found row.id (.error (.invalidStatus "disk full")), .unregistered row.id] := by
    rw [hlog]
    rfl
  obtain ⟨-, hreturned⟩ := closed_iff_readable _ _ _ rfl ha
  obtain ⟨reply, rest, hrest, hclosed, -⟩ := hreturned row _ (by rw [hnotes]; rfl) hdone
  obtain ⟨rfl, rfl⟩ :
      .error (.invalidStatus "disk full") = reply ∧ [.unregistered row.id] = rest := by
    simpa [hnotes] using hrest
  rw [hclosed, hlog]
  rintro (hreadable | ⟨e, he, hother, -⟩)
  · exact hreadable
  · simp only [List.mem_cons, List.not_mem_nil, or_false] at he
    rcases he with rfl | rfl | rfl | rfl <;> exact hother rfl

end Workflow
