import Workflow.Proofs.Run.Conduct

/-!
# Those beside a run

Beside a run there are requests to cancel its execution, and the handlers that it runs.  A request
tells a run to stop only after the execution has ended.  A handler may do anything with what is
its own, read executions and create new ones, and cancel any execution, as a client of the engine;
it may panic, wait for ever, or leave tasks behind.
-/

namespace Workflow

open Proc

variable {H : Type} {id wid x : Uuid} {row₀ : ExecutionRow} {workflows₀ : List WorkflowRow}
  {r : Role} {s s' : Scene}

/-! ### Requests -/

/-- What the answer to a request to cancel an execution says: the execution has ended, its run was
told to stop if it could be told, and it was this request that ended it if it was applied. -/
def Answered (id : Uuid) (r : Role) (answer : Except RunError Bool) (s : Scene) : Prop :=
  ∃ applied, answer = .ok applied ∧ s.log.Signalled id ∧
    (applied = true → (r, cancelFinish) ∈ s.log.grants id)

theorem stable_answered (t : Role) (answer : Except RunError Bool) :
    (conduct H id wid).Stable r (Answered id t answer) := by
  rintro other hother s s' hs ⟨applied, rfl, hsignal, hgrant⟩
  exact ⟨applied, rfl, stable_signalled id other hother s s' hs hsignal,
    fun h => stable_mem_grants id _ other hother s s' hs (hgrant h)⟩

theorem Consistent.ended_of_finished (h : Consistent row₀ wid workflows₀ s) {f : Finish}
    {reply : Except StoreError Bool} (hs : s.Noted r (.finished row₀.id f reply) s') :
    ∃ applied, reply = .ok applied ∧ s'.log.grants row₀.id ≠ [] ∧
      (applied = true → (r, f) ∈ s'.log.grants row₀.id) := by
  have hstate : ∃ row status, s.memory.execution? row₀.id = some row ∧ row.state = .ok status ∧
      (s.log.grants row₀.id = [] → status = .running) := by
    rcases h.state with ⟨-, hrow⟩ | ⟨t, g, row, hgrants, hrow, hstate, -, -⟩
    · exact ⟨row₀, .running, hrow, h.began, fun _ => rfl⟩
    · exact ⟨row, g.status, hrow, hstate, by simp [hgrants]⟩
  obtain ⟨row, status, hrow, hstate, hrunning⟩ := hstate
  obtain ⟨-, ⟨rfl, -, -⟩ | ⟨rfl, -, hterm⟩ | ⟨-, e, row', rfl, hrow', he⟩⟩ := hs.effect
  · refine ⟨true, rfl, ?_, fun _ => ?_⟩ <;> simp [hs.log]
  · obtain ⟨status', hstatus', hterm⟩ := hterm row hrow
    rw [hstate, Except.ok.injEq] at hstatus'
    subst hstatus'
    refine ⟨false, rfl, fun hnone => ?_, by simp⟩
    rw [hs.log, Log.grants_append, List.append_eq_nil_iff] at hnone
    simp [hrunning hnone.1, ExecutionStatus.isTerminal] at hterm
  · rw [hrow, Option.some.injEq] at hrow'
    subst hrow'
    rw [hstate] at he
    cases he

theorem cancel_ensures (hr : r = .guest ∨ r = .request) (x : Uuid)
    (hs : Consistent row₀ wid workflows₀ s) {X : String → Scene → Prop} :
    Ensures (conduct H row₀.id wid) r (Engine.cancel x)
      (fun answer s => Consistent row₀ wid workflows₀ s ∧ (x = row₀.id → Answered x r answer s))
      X s := by
  refine hs.ask (F := fun _ => True) trivial (Rules.stable_true r) (fun t _ _ => ?_)
    fun reply t t' ht _ ht' hanswer => ?_
  · apply permits_of_note rfl
    intro reply n hn
    cases hn
    rcases hr with rfl | rfl <;> rfl
  have hnoted := hanswer.noted rfl
  cases reply with
  | error e =>
      intro u hu
      refine ⟨(Consistent.stable r).meanwhile hu ht', ?_⟩
      rintro rfl
      obtain ⟨applied, happlied, -, -⟩ := ht.ended_of_finished hnoted
      cases happlied
  | ok applied =>
      have hended : x = row₀.id → t'.log.grants row₀.id ≠ [] ∧
          (applied = true → (r, cancelFinish) ∈ t'.log.grants row₀.id) := by
        rintro rfl
        obtain ⟨applied', happlied, hended, hgrant⟩ := ht.ended_of_finished hnoted
        cases happlied
        exact ⟨hended, hgrant⟩
      refine ht'.ask (F := fun s => x = row₀.id → s.log.grants row₀.id ≠ [] ∧
        (applied = true → (r, cancelFinish) ∈ s.log.grants row₀.id)) hended ?_ (fun u _ hu => ?_)
        fun _ u u' _ hu hu' hsignal v hv => ?_
      · intro other hother s s' hs h hx
        refine ⟨stable_ended _ other hother s s' hs (h hx).1, fun happlied => ?_⟩
        exact stable_mem_grants _ _ other hother s s' hs ((h hx).2 happlied)
      · apply permits_of_note rfl
        intro _ n hn
        cases hn
        exact ⟨hr, fun hx => (hu hx).1⟩
      · have hlog := (hsignal.noted rfl).log
        refine ⟨(Consistent.stable r).meanwhile hv hu', fun hx => ?_⟩
        subst hx
        refine (stable_answered r _).meanwhile hv ⟨applied, rfl, ⟨r, ?_⟩, fun happlied => ?_⟩
        · simp [hlog]
        · rw [hlog, Log.grants_append]
          exact List.mem_append_left _ ((hu rfl).2 happlied)

/-- Where it may always be called what a request calls, an execution may be asked to be
cancelled. -/
theorem cancel_ensures_nothing {S : Type*} {R : Rules (Call H) S} (x : Uuid)
    (hfinish : ∀ s, R.permits .request _ (.store (.finishExecution x cancelFinish)) s)
    (hsignal : ∀ s, R.permits .request _ (.here (.signal x)) s) (s : S) :
    Ensures R .request (Engine.cancel x) (fun _ _ => True) (fun _ _ => True) s := by
  refine fun t _ => ⟨hfinish t, fun finished u _ => ?_⟩
  cases finished with
  | error e => exact fun _ _ => trivial
  | ok applied => exact fun v _ => ⟨hsignal v, fun _ w _ _ _ => trivial⟩

/-! ### Handlers -/

/-- A note that no execution is changed by. -/
def Note.IsHarmless : Note → Prop
  | .created _ => True
  | .found _ _ => True
  | _ => False

/-- A call that changes no execution. -/
def Call.IsHarmless {β : Type} (c : Call H β) : Prop :=
  ∀ reply n, c.note? reply = some n → n.IsHarmless

/-- What a client of the engine may do: whatever changes no execution, and cancel executions. -/
inductive Proc.IsClient : {α : Type} → Proc (Call H) α → Prop where
  | done {α : Type} (a : α) : IsClient (.done a)
  | panic {α : Type} (message : String) : IsClient (.panic message : Proc (Call H) α)
  | ask {α β : Type} {c : Call H β} {next : β → Proc (Call H) α} :
      c.IsHarmless → (∀ reply, IsClient (next reply)) → IsClient (.ask c next)
  | cancel {α : Type} (id : Uuid) {next : Except RunError Bool → Proc (Call H) α} :
      (∀ answer, IsClient (next answer)) → IsClient ((Engine.cancel id).bind next)
  | wait {α : Type} (d : Deadline) {stop : Option (Call H Bool)} {next : Bool → Proc (Call H) α} :
      (∀ c, stop = some c → c.IsHarmless) → (∀ b, IsClient (next b)) → IsClient (.wait d stop next)
  | limited {α β : Type} (d : Option Deadline) {stop : Option (Call H Bool)}
      {body : Proc (Call H) β} {next : Ending β → Proc (Call H) α} :
      (∀ c, stop = some c → c.IsHarmless) → IsClient body → (∀ e, IsClient (next e)) →
        IsClient (.limited d stop body next)
  | all {α β : Type} {n : Nat} {parts : Fin n → Proc (Call H) β}
      {next : (Fin n → β) → Proc (Call H) α} :
      (∀ i, IsClient (parts i)) → (∀ results, IsClient (next results)) →
        IsClient (.all n parts next)
  | attempt {α β : Type} {body : Proc (Call H) β} {next : Except String β → Proc (Call H) α} :
      IsClient body → (∀ e, IsClient (next e)) → IsClient (.attempt body next)
  | own {α β : Type} (started : Bool) {body : Proc (Call H) β}
      {next : Except String β → Proc (Call H) α} :
      IsClient body → (∀ e, IsClient (next e)) → IsClient (.own started body next)

/-- A registry whose handlers are all clients, whatever they are given. -/
def Registry.IsClient (registry : Registry H) : Prop :=
  ∀ name version handler, registry.find? name version = some handler →
    ∀ context input, (handler context input).IsClient

theorem Registry.isClient_nil : Registry.IsClient ([] : Registry H) := by
  intro name version handler hfound
  cases hfound

theorem Call.IsHarmless.permits {β : Type} {c : Call H β} (hc : c.IsHarmless) :
    (conduct H id wid).permits .guest β c s := by
  refine ⟨fun reply n hn => ?_, fun x _ hr => by simp at hr⟩
  have hharmless := hc reply n hn
  cases n with
  | created reply => rfl
  | found x reply => trivial
  | _ => exact hharmless.elim

theorem Proc.IsClient.ensures {α : Type} {p : Proc (Call H) α} (h : p.IsClient)
    (hs : Consistent row₀ wid workflows₀ s) :
    Ensures (conduct H row₀.id wid) .guest p (fun _ s => Consistent row₀ wid workflows₀ s)
      (fun _ s => Consistent row₀ wid workflows₀ s) s := by
  induction h generalizing s with
  | done a => exact fun t ht => (Consistent.stable _).meanwhile ht hs
  | panic message => exact fun t ht => (Consistent.stable _).meanwhile ht hs
  | ask hc _ ih =>
      refine hs.ask (F := fun _ => True) trivial (Rules.stable_true _) (fun _ _ _ => hc.permits) ?_
      exact fun reply t t' _ _ ht' _ => ih reply ht'
  | cancel id _ ih =>
      exact Ensures.andThen (cancel_ensures (.inl rfl) id hs) fun answer t ht => ih answer ht.1
  | wait d hstop _ ih =>
      intro t ht
      have ht' := (Consistent.stable _).meanwhile ht hs
      refine ⟨ih true ht', fun c hc => ⟨(hstop c hc).permits, fun u hu => ih false ?_⟩⟩
      exact ht'.moves ⟨_, c, true, (hstop c hc).permits, hu⟩
  | limited d hstop _ _ ihBody ih =>
      refine ⟨_, _, ihBody hs, fun t ht => ?_⟩
      have ht' := (Consistent.stable _).meanwhile ht hs
      refine ⟨fun b hb => ih _ hb, fun m hm => hm, ih _ ht', fun c hc => ?_⟩
      refine ⟨(hstop c hc).permits, fun u hu => ih _ ?_⟩
      exact ht'.moves ⟨_, c, true, (hstop c hc).permits, hu⟩
  | all _ _ ihParts ih =>
      refine ⟨fun _ _ s => Consistent row₀ wid workflows₀ s, _, fun i => ihParts i hs, ?_⟩
      exact fun t ht => ⟨fun results _ => ih results ((Consistent.stable _).meanwhile ht hs),
        fun m hm => hm⟩
  | attempt _ _ ihBody ih => exact ⟨_, _, ihBody hs, fun t => ⟨fun b => ih _, fun m => ih _⟩⟩
  | own started _ _ ihBody ih =>
      exact ⟨.inr rfl, _, _, ihBody hs, fun t => ⟨fun b => ih _, fun m => ih _⟩⟩

end Workflow
