import Workflow.Proofs.Run.Beside
import Workflow.Proofs.Run.Walk

/-!
# What a run ensures

The owner of a run always knows the notes of its own calls, since nobody else makes them in its
name.  With the invariant they say what the owner needs: whether the execution is in flight, whether
it was the owner that ended it, and which stamps there are.  The laws follow the functions of a run,
up to the law of a whole run (`begun_ensures`).
-/

namespace Workflow

open Proc

variable {H : Type} {wid : Uuid} {row₀ : ExecutionRow} {workflows₀ : List WorkflowRow}
  {l : List Note} {r : Role} {s s' : Scene}

/-! ### What the owner knows -/

/-- The invariant, and the notes of the owner. -/
structure Standing (row₀ : ExecutionRow) (wid : Uuid) (workflows₀ : List WorkflowRow)
    (l : List Note) (s : Scene) : Prop where
  consistent : Consistent row₀ wid workflows₀ s
  history : s.log.notesOf .owner = l

theorem notesOf_owner_of_moves (hr : r ≠ .owner) (hs : (conduct H row₀.id wid).Moves r s s') :
    s'.log.notesOf .owner = s.log.notesOf .owner := by
  rcases moves_cases hs with halike | ⟨n, -, hnoted⟩
  · rw [halike.log]
  · rw [hnoted.log, Log.notesOf_append, Log.notesOf_single_of_ne _ hr, List.append_nil]

theorem Role.Walks.meets {other : Role} (hr : r.Walks) (h : r.Meets other) : other ≠ .owner := by
  rcases hr with rfl | rfl <;> exact h

namespace Standing

theorem stable (hr : r.Walks) :
    (conduct H row₀.id wid).Stable r (Standing row₀ wid workflows₀ l) := by
  intro other hother s s' hs h
  refine ⟨h.consistent.moves hs, ?_⟩
  rw [notesOf_owner_of_moves (hr.meets hother) hs, h.history]

theorem alike (h : Standing row₀ wid workflows₀ l s) (hs : s.Alike s') :
    Standing row₀ wid workflows₀ l s' :=
  ⟨h.consistent.alike hs, by rw [hs.log, h.history]⟩

theorem answered {β : Type} {c : Call H β} {reply : β} (h : Standing row₀ wid workflows₀ l s)
    (hperm : (conduct H row₀.id wid).permits .owner β c s)
    (hs : Scene.Answers .owner β c s reply s') :
    Standing row₀ wid workflows₀ (l ++ (c.note? reply).toList) s' := by
  refine ⟨h.consistent.moves ⟨β, c, reply, hperm, hs⟩, ?_⟩
  cases hn : c.note? reply with
  | none => rw [(hs.alike hn).log, h.history, Option.toList_none, List.append_nil]
  | some n =>
      rw [(hs.noted hn).log, Log.notesOf_append, Log.notesOf_single_self, h.history,
        Option.toList_some]

/-- Only the owner ends an execution otherwise than by cancelling it, and it would know. -/
theorem eq_cancelFinish (h : Standing row₀ wid workflows₀ l s) {f : Finish}
    (hgrant : (r, f) ∈ s.log.grants row₀.id) (hl : .finished row₀.id f (.ok true) ∉ l) :
    f = cancelFinish := by
  rcases (h.consistent.granted _ hgrant).2 with ⟨rfl, -⟩ | ⟨-, hf⟩
  · rw [Log.mem_grants, ← Log.mem_notesOf, h.history] at hgrant
    exact absurd hgrant hl
  · exact hf

theorem stamps (h : Standing row₀ wid workflows₀ l s) :
    s.log.stamps = l.filterMap Note.stamp? := by
  rw [h.consistent.touched, h.history]

theorem inFlight (h : Standing row₀ wid workflows₀ l s) (hl : .registered row₀.id ∈ l)
    (hl' : .unregistered row₀.id ∉ l) : row₀.id ∈ s.here.inFlight := by
  rw [h.consistent.inFlight, h.history]
  exact ⟨hl, hl'⟩

/-- A property that no call takes away. -/
def Lasts (H : Type) (row₀ : ExecutionRow) (wid : Uuid) (workflows₀ : List WorkflowRow)
    (F : Scene → Prop) : Prop :=
  ∀ r s s', Consistent row₀ wid workflows₀ s → (conduct H row₀.id wid).Moves r s s' → F s → F s'

theorem lasts_true : Lasts H row₀ wid workflows₀ fun _ => True := fun _ _ _ _ _ _ => trivial

theorem lasts_ended (P : Prop) :
    Lasts H row₀ wid workflows₀ fun s => P → s.log.grants row₀.id ≠ [] := by
  intro r s s' h hs hended hp
  rw [(h.moves_ended hs (hended hp)).1]
  exact hended hp

theorem lasts_closed (e : Role × Finish) :
    Lasts H row₀ wid workflows₀ fun s => s.log.grants row₀.id = [e] := by
  intro r s s' h hs hgrants
  rw [(h.moves_ended hs (by simp [hgrants])).1, hgrants]

theorem lasts_row {grants : List (Role × Finish)} (hended : grants ≠ [])
    (found : Option ExecutionRow) : Lasts H row₀ wid workflows₀ fun s =>
      s.log.grants row₀.id = grants ∧ s.memory.execution? row₀.id = found := by
  intro r s s' h hs hrow
  obtain ⟨hgrants, hexec⟩ := h.moves_ended hs (by rw [hrow.1]; exact hended)
  exact ⟨hgrants.trans hrow.1, hexec.trans hrow.2⟩

theorem lasts_mem_log (e : Role × Note) : Lasts H row₀ wid workflows₀ fun s => e ∈ s.log :=
  fun _ _ _ _ hs he => (moves_log hs).subset he

variable {F : Scene → Prop} {α β : Type} {Q : α → Scene → Prop} {X : String → Scene → Prop}

theorem meanwhile (hF : Lasts H row₀ wid workflows₀ F) (h : Standing row₀ wid workflows₀ l s)
    (hs : F s) (hmean : (conduct H row₀.id wid).Meanwhile .owner s s') :
    Standing row₀ wid workflows₀ l s' ∧ F s' := by
  refine Rules.Stable.meanwhile (F := fun s => Standing row₀ wid workflows₀ l s ∧ F s) ?_ hmean
    ⟨h, hs⟩
  intro other hother t t' ht hstands
  exact ⟨stable (.inl rfl) other hother t t' ht hstands.1,
    hF other t t' hstands.1.consistent ht hstands.2⟩

theorem done (hF : Lasts H row₀ wid workflows₀ F) (h : Standing row₀ wid workflows₀ l s)
    (hs : F s) {a : α} (hQ : ∀ t, Standing row₀ wid workflows₀ l t → F t → Q a t) :
    Ensures (conduct H row₀.id wid) .owner (.done a) Q X s := by
  intro t ht
  obtain ⟨hstands, hFt⟩ := meanwhile hF h hs ht
  exact hQ t hstands hFt

theorem ask (hF : Lasts H row₀ wid workflows₀ F) (h : Standing row₀ wid workflows₀ l s) (hs : F s)
    {c : Call H β} {next : β → Proc (Call H) α}
    (hperm : ∀ t, Standing row₀ wid workflows₀ l t → F t →
      (conduct H row₀.id wid).permits .owner β c t)
    (hnext : ∀ reply t t', Standing row₀ wid workflows₀ l t → F t →
      Scene.Answers .owner β c t reply t' →
        Standing row₀ wid workflows₀ (l ++ (c.note? reply).toList) t' → F t' →
          Ensures (conduct H row₀.id wid) .owner (next reply) Q X t') :
    Ensures (conduct H row₀.id wid) .owner (.ask c next) Q X s := by
  intro t ht
  obtain ⟨hstands, hFt⟩ := meanwhile hF h hs ht
  have hpermits := hperm t hstands hFt
  refine ⟨hpermits, fun reply t' hanswer => ?_⟩
  have hmoves : (conduct H row₀.id wid).Moves .owner t t' := ⟨β, c, reply, hpermits, hanswer⟩
  exact hnext reply t t' hstands hFt hanswer (hstands.answered hpermits hanswer)
    (hF .owner t t' hstands.consistent hmoves hFt)

theorem askClock (hF : Lasts H row₀ wid workflows₀ F) (h : Standing row₀ wid workflows₀ l s)
    (hs : F s) {next : Time.Instant → Proc (Call H) α}
    (hnext : ∀ now t, Standing row₀ wid workflows₀ l t → F t →
      Ensures (conduct H row₀.id wid) .owner (next now) Q X t) :
    Ensures (conduct H row₀.id wid) .owner (Proc.askClock next) Q X s := by
  refine ask hF h hs (fun t _ _ => permits_of_note rfl fun _ _ hn => by cases hn) ?_
  intro now t t' _ _ _ hstands hFt
  exact hnext now t' (by simpa [Call.note?] using hstands) hFt

end Standing

/-! ### Walks -/

/-- While the execution is in flight, its run was told to stop if anybody signalled so. -/
def Walking (row₀ : ExecutionRow) (wid : Uuid) (workflows₀ : List WorkflowRow) (l : List Note)
    (s : Scene) : Prop :=
  Standing row₀ wid workflows₀ l s ∧ (s.log.Signalled row₀.id → row₀.id ∈ s.here.stopped)

theorem Walking.alike (h : Walking row₀ wid workflows₀ l s) (hs : s.Alike s') :
    Walking row₀ wid workflows₀ l s' := by
  refine ⟨h.1.alike hs, ?_⟩
  rw [hs.log, hs.stopped]
  exact h.2

theorem Walking.stable (hl : .registered row₀.id ∈ l) (hl' : .unregistered row₀.id ∉ l)
    (hr : r.Walks) : (conduct H row₀.id wid).Stable r (Walking row₀ wid workflows₀ l) := by
  intro other hother s s' hs h
  refine ⟨Standing.stable hr other hother s s' hs h.1, fun hsignal => ?_⟩
  rcases moves_cases hs with halike | ⟨n, -, hnoted⟩
  · rw [halike.log] at hsignal
    rw [halike.stopped]
    exact h.2 hsignal
  · rw [hnoted.mem_stopped]
    rcases hnoted.signalled.mp hsignal with hbefore | hnow
    · exact .inl (h.2 hbefore)
    · exact .inr ⟨hnow, h.1.inFlight hl hl'⟩

/-- A run that is registered gives a walk its ground: what the owner knows, and that the execution
has ended when the walk is told to stop. -/
theorem walking_ground {registry : Registry H} {nodes : List Node} (hclient : registry.IsClient)
    (hl : .registered row₀.id ∈ l) (hl' : .unregistered row₀.id ∉ l) :
    Ground (conduct H row₀.id wid) registry row₀.id wid nodes (Walking row₀ wid workflows₀ l)
      fun s => s.log.grants row₀.id ≠ [] where
  stable r hr := Walking.stable hl hl' hr
  told r _ := stable_ended row₀.id
  quiet r hr β c hc s hs := by
    refine ⟨permits_of_note hc.unpolled fun reply n hn => ?_, fun reply s' hanswer => ?_⟩
    · rw [hc.unnoted reply] at hn
      cases hn
    · have halike := hanswer.alike (hc.unnoted reply)
      exact ⟨hs.alike halike, by simp only [halike.log, imp_self]⟩
  poll r hr s hs := by
    refine ⟨⟨(fun reply n hn => by cases hn), fun x hx _ => ?_⟩, fun reply s' hanswer => ?_⟩
    · cases hx
      exact ⟨rfl, hs.2⟩
    · rw [conduct_answers] at hanswer
      obtain ⟨rfl, hreply⟩ := Scene.answers_isStopped hanswer
      exact ⟨hs, id, fun h => hs.1.consistent.stopped (hreply.mp h)⟩
  handler name version handler hfound context input s hs :=
    ((hclient name version handler hfound context input).ensures hs.1.consistent).mono
      (fun _ _ _ => trivial) fun _ _ _ => trivial

/-! ### The end of a run -/

/-- What is reported of an execution that ended: an outcome with its state, and with a result only
if it was completed; or that its run was broken off. -/
inductive Reported (id wid : Uuid) (status : ExecutionStatus) : Except RunError Outcome → Prop where
  | outcome {o : Outcome} : o.executionId = id → o.workflowId = wid → o.status = status →
      (status ≠ .completed → o.result = none) → Reported id wid status (.ok o)
  | aborted (message : String) : Reported id wid status (.error (.aborted id message))

/-- What holds when the owner has reported the end of an execution: it has ended, by somebody, and
is stamped exactly if it was completed. -/
def Ended (row₀ : ExecutionRow) (wid : Uuid) (workflows₀ : List WorkflowRow) (l : List Note)
    (report : Except RunError Outcome) (s : Scene) : Prop :=
  Standing row₀ wid workflows₀ l s ∧ ∃ r f, s.log.grants row₀.id = [(r, f)] ∧
    Reported row₀.id wid f.status report ∧
      (l.filterMap Note.stamp?).length = if f.status = .completed then 1 else 0

theorem Ended.of_standing {f : Finish} {report : Except RunError Outcome}
    (h : Standing row₀ wid workflows₀ l s) (hgrants : s.log.grants row₀.id = [(r, f)])
    (hreport : Reported row₀.id wid f.status report)
    (hl : (l.filterMap Note.stamp?).length = if f.status = .completed then 1 else 0) :
    Ended row₀ wid workflows₀ l report s := ⟨h, r, f, hgrants, hreport, hl⟩

namespace Standing

variable {F : Scene → Prop} {α : Type} {Q : α → Scene → Prop} {X : String → Scene → Prop}

theorem askRow (hF : Lasts H row₀ wid workflows₀ F) (h : Standing row₀ wid workflows₀ l s)
    (hs : F s) {next : Except StoreError (Option ExecutionRow) → Proc (Call H) α}
    (hnext : ∀ row t,
      Standing row₀ wid workflows₀ (l ++ [.found row₀.id (.ok (some row))]) t → F t →
      (t.log.grants row₀.id = [] ∧ row.state = .ok .running) ∨
        (∃ r f, t.log.grants row₀.id = [(r, f)] ∧ row.state = .ok f.status ∧
          row.error = f.error ∧ f.status.isTerminal = true) →
      Ensures (conduct H row₀.id wid) .owner (next (.ok (some row))) Q X t) :
    Ensures (conduct H row₀.id wid) .owner (Proc.askStore (.getExecution row₀.id) next) Q X s := by
  refine ask hF h hs (fun t _ _ => permits_of_note rfl fun _ _ hn => by cases hn; trivial) ?_
  intro reply t t' ht _ hanswer hstands hFt
  have hnoted := hanswer.noted rfl
  obtain ⟨-, -, hreply⟩ := hnoted.effect
  have hsame : t'.log.grants row₀.id = t.log.grants row₀.id := by
    simp [hnoted.log, Log.grants]
  rcases ht.consistent.state with ⟨hnone, hrow⟩ | ⟨r, f, row, hgrants, hrow, hstate, herror, hterm⟩
  · rw [hrow] at hreply
    subst hreply
    exact hnext row₀ t' hstands hFt (.inl ⟨hsame.trans hnone, ht.consistent.began⟩)
  · rw [hrow] at hreply
    subst hreply
    exact hnext row t' hstands hFt (.inr ⟨r, f, hsame.trans hgrants, hstate, herror, hterm⟩)

theorem askFinish (h : Standing row₀ wid workflows₀ l s) {f : Finish}
    (hterm : f.status.isTerminal = true)
    (hcancel : f.status = .cancelled → s.log.grants row₀.id ≠ [])
    (hl : ∀ f, .finished row₀.id f (.ok true) ∉ l) {next : Except StoreError Bool → Proc (Call H) α}
    (hnext : ∀ applied t g r,
      Standing row₀ wid workflows₀ (l ++ [.finished row₀.id f (.ok applied)]) t →
      t.log.grants row₀.id = [(r, g)] →
      (applied = true ∧ r = .owner ∧ g = f) ∨ (applied = false ∧ g = cancelFinish) →
      Ensures (conduct H row₀.id wid) .owner (next (.ok applied)) Q X t) :
    Ensures (conduct H row₀.id wid) .owner (Proc.askStore (.finishExecution row₀.id f) next) Q X
      s := by
  refine ask (lasts_ended (f.status = .cancelled)) h hcancel (fun t _ ht => ?_) ?_
  · apply permits_of_note rfl
    intro _ _ hn
    cases hn
    exact ⟨rfl, hterm, ht⟩
  intro reply t t' ht _ hanswer hstands _
  have hnoted := hanswer.noted rfl
  obtain ⟨applied, rfl, hended, hgrant⟩ := ht.consistent.ended_of_finished hnoted
  rcases hstands.consistent.row with ⟨hnone, -⟩ | ⟨r, g, now, hgrants, -⟩
  · exact absurd hnone hended
  · refine hnext applied t' g r hstands hgrants ?_
    cases applied with
    | true =>
        have hmem := hgrant rfl
        rw [hgrants, List.mem_singleton, Prod.mk.injEq] at hmem
        exact .inl ⟨rfl, hmem.1.symm, hmem.2.symm⟩
    | false =>
        refine .inr ⟨rfl, hstands.eq_cancelFinish (r := r) (by simp [hgrants]) ?_⟩
        simp [Call.note?, StoreCall.note?, hl]

end Standing

theorem Visited.finish_isTerminal (v : Visited) (stopped : Bool) :
    (v.finish stopped).status.isTerminal = true := by
  rw [Visited.finish]
  split
  · rfl
  · simp only
    split <;> rfl

/-- A walk is concluded as cancelled only if its run was told to stop, or if it failed by that. -/
theorem Visited.stopped_of_finish {v : Visited} {stopped : Bool}
    (h : (v.finish stopped).status = .cancelled) : stopped = true ∨ v.IsCancelled := by
  rw [Visited.finish] at h
  cases hending : v.ending with
  | ok c => simp [hending] at h
  | error failure =>
      simp only [hending] at h
      by_cases hstop : (stopped || failure.error.isCancellation) = true
      · rw [Bool.or_eq_true] at hstop
        exact hstop.imp_right fun hcancel => ⟨failure, hending, hcancel⟩
      · simp [hstop] at h

namespace Engine

variable {c : Context} {visited : Visited} {X : String → Scene → Prop}

/-- What the owner knows of its own calls before the end of its execution: it has not ended it, and
stamped nothing. -/
def IsOpen (id : Uuid) (l : List Note) : Prop :=
  (∀ f, .finished id f (.ok true) ∉ l) ∧ l.filterMap Note.stamp? = []

theorem isOpen_append {id : Uuid} {l l' : List Note} (h : IsOpen id l) (h' : IsOpen id l') :
    IsOpen id (l ++ l') := by
  refine ⟨fun f hf => ?_, by rw [List.filterMap_append, h.2, h'.2, List.nil_append]⟩
  exact (List.mem_append.mp hf).elim (h.1 f) (h'.1 f)

theorem report_ensures {f : Finish} {finish : Finish} {startedAt : Time.Instant}
    (h : Standing row₀ wid workflows₀ l s) (hc : visited.context.IsOf row₀.id wid)
    (hgrants : s.log.grants row₀.id = [(r, f)])
    (hl : (l.filterMap Note.stamp?).length = if f.status = .completed then 1 else 0) :
    Ensures (conduct H row₀.id wid) .owner
      (.askClock fun finishedAt =>
        .done (.ok (outcome visited finish f.status startedAt finishedAt)))
      (fun report s => ∃ l, Ended row₀ wid workflows₀ l report s) X s := by
  apply Standing.askClock (Standing.lasts_closed (r, f)) h hgrants
  intro finishedAt t ht hg
  refine Standing.done (Standing.lasts_closed (r, f)) ht hg fun u hu hg => ⟨l, ?_⟩
  refine .of_standing hu hg (.outcome hc.1 hc.2 rfl fun hstatus => ?_) hl
  simp [outcome, hstatus]

/-- The owner ends its execution, unless a request was first, and stamps it if it ended it as
completed. -/
theorem conclude_ensures {stopped : Bool} {startedAt : Time.Instant}
    (h : Standing row₀ wid workflows₀ l s) (hc : visited.context.IsOf row₀.id wid)
    (hcancel : (visited.finish stopped).status = .cancelled → s.log.grants row₀.id ≠ [])
    (hl : IsOpen row₀.id l) :
    Ensures (conduct H row₀.id wid) .owner (conclude visited stopped startedAt)
      (fun report s => ∃ l, Ended row₀ wid workflows₀ l report s) X s := by
  simp only [conclude, hc.1, hc.2]
  refine h.askFinish (visited.finish_isTerminal stopped) hcancel hl.1
    fun applied t g r ht hgrants hcase => ?_
  rcases hcase with ⟨rfl, rfl, rfl⟩ | ⟨rfl, rfl⟩
  · by_cases hstatus : (visited.finish stopped).status = .completed
    · simp only [settled, if_pos, done_bind, stamp, hstatus, decide_true, Bool.and_self]
      apply Standing.askClock (Standing.lasts_closed _) ht hgrants
      intro now u hu hg
      refine Standing.ask (Standing.lasts_closed _) hu hg (fun v _ hg => ?_)
        fun _ v v' _ _ _ hv' hg => ?_
      · apply permits_of_note rfl
        intro _ _ hn
        cases hn
        exact ⟨rfl, rfl, _, hg, hstatus⟩
      · rw [← hstatus]
        refine report_ensures hv' hc hg ?_
        rw [if_pos hstatus, List.filterMap_append, List.filterMap_append, hl.2]
        rfl
    · simp only [settled, if_pos, done_bind, stamp, hstatus, decide_false, Bool.and_false,
        Bool.false_eq_true, if_false]
      refine report_ensures ht hc hgrants ?_
      rw [if_neg hstatus, List.filterMap_append, hl.2]
      rfl
  · simp only [settled, Bool.false_eq_true, if_false]
    apply Standing.askRow (Standing.lasts_closed _) ht hgrants
    intro row u hu hg hrow
    have hcancelled : row.state.mapError RunError.store = .ok cancelFinish.status := by
      rcases hrow with ⟨hnone, -⟩ | ⟨r', f, hg', hstate, -, -⟩
      · simp [hg] at hnone
      · rw [hg, List.cons.injEq, Prod.mk.injEq] at hg'
        rw [hstate, hg'.1.2]
        rfl
    simp only [hcancelled, done_bind, stamp, Bool.false_and, Bool.false_eq_true,
      if_false]
    refine report_ensures hu hc hg ?_
    rw [List.filterMap_append, List.filterMap_append, hl.2]
    rfl

/-- The walk of a run that is registered, and its end.  A panic comes from the walk only. -/
theorem walk_ensures {engine : Engine H} (hclient : engine.adapter.registry.IsClient)
    (d : Definition) {startedAt : Time.Instant} (h : Walking row₀ wid workflows₀ l s)
    (hc : c.IsOf row₀.id wid) (hl : IsOpen row₀.id l) (hreg : .registered row₀.id ∈ l)
    (hunreg : .unregistered row₀.id ∉ l) :
    Ensures (conduct H row₀.id wid) .owner (engine.walk d c startedAt)
      (fun report s => ∃ l, Ended row₀ wid workflows₀ l report s)
      (fun _ s => Standing row₀ wid workflows₀ l s) s := by
  have G : Ground (conduct H row₀.id wid) engine.adapter.registry row₀.id wid d.nodes
      (Walking row₀ wid workflows₀ l) fun s => s.log.grants row₀.id ≠ [] :=
    walking_ground hclient hreg hunreg
  refine Ensures.andThen ((Walk.start_ensures ⟨d, engine.adapter, engine.config.maxItems⟩ G
    (.inl rfl) hc h).mono (fun _ _ hv => hv) fun _ _ hx => hx.1) fun visited t ht => ?_
  obtain ⟨hknown, hcontext⟩ := ht
  cases hending : visited.ending with
  | ok last =>
      refine conclude_ensures hknown.1.1 hcontext (fun hcancel => hknown.2 ?_) hl
      exact (Visited.stopped_of_finish hcancel).resolve_left Bool.false_ne_true
  | error failure =>
      simp only [hc.1]
      apply G.askStopped (.inl rfl) hknown
      intro stopped u hu
      refine conclude_ensures hu.1.1 hcontext (fun hcancel => hu.2 ?_) hl
      exact Visited.stopped_of_finish hcancel

/-- A run that is registered reads the row of its execution, and walks only if it is running. -/
theorem perform_ensures {engine : Engine H} (hclient : engine.adapter.registry.IsClient)
    (d : Definition) (h : Standing row₀ wid workflows₀ l s) (hc : c.IsOf row₀.id wid)
    (hl : IsOpen row₀.id l) (hreg : .registered row₀.id ∈ l) (hunreg : .unregistered row₀.id ∉ l) :
    Ensures (conduct H row₀.id wid) .owner (engine.perform d c)
      (fun report s => ∃ l, Ended row₀ wid workflows₀ l report s)
      (fun _ s => ∃ reply, Standing row₀ wid workflows₀ (l ++ [.found row₀.id reply]) s) s := by
  have hfound : ∀ reply, IsOpen row₀.id (l ++ [.found row₀.id reply]) := fun reply =>
    isOpen_append hl ⟨by simp, rfl⟩
  apply Standing.askClock Standing.lasts_true h trivial
  intro startedAt t ht _
  simp only [hc.1]
  apply Standing.askRow Standing.lasts_true ht trivial
  intro row u hu _ hrow
  rcases hrow with ⟨hnone, hrun⟩ | ⟨r, f, hgrants, hstate, -, hterm⟩
  · simp only [hrun, ExecutionStatus.isTerminal, Bool.false_eq_true, if_false]
    have hwalking : Walking row₀ wid workflows₀ (l ++ [.found row₀.id (.ok (some row))]) u :=
      ⟨hu, fun hsignal => absurd hnone (hu.consistent.signalled hsignal)⟩
    refine (walk_ensures hclient d hwalking hc (hfound _) ?_ ?_).mono (fun _ _ hq => hq)
      fun _ _ hx => ⟨_, hx⟩
    · exact List.mem_append_left _ hreg
    · simp [hunreg]
  · simp only [hstate, hterm, if_true]
    have hlast : Standing.Lasts H row₀ wid workflows₀ fun s => s.log.grants row₀.id = [(r, f)] :=
      Standing.lasts_closed (r, f)
    apply Standing.askClock hlast hu hgrants
    intro finishedAt v hv hg
    refine Standing.done hlast hv hg fun v' hv' hg' => ⟨_, .of_standing hv' hg' ?_ ?_⟩
    · exact .outcome hc.1 hc.2 rfl fun _ => rfl
    · have hf : f = cancelFinish := hv'.eq_cancelFinish (r := r) (by simp [hg']) ((hfound _).1 f)
      rw [(hfound _).2, hf]
      rfl

/-- What comes of a run that was broken off: its execution is ended as failed, unless a request was
first. -/
theorem abort_ensures (message : String) (h : Standing row₀ wid workflows₀ l s)
    (hl : IsOpen row₀.id l) :
    Ensures (conduct H row₀.id wid) .owner (abort row₀.id message)
      (fun report s => ∃ l', Ended row₀ wid workflows₀ (l ++ l') report s) X s := by
  refine h.askFinish rfl (fun hcancel => by cases hcancel) hl.1
    fun applied t g r ht hgrants hcase => ?_
  let note : Note := .finished row₀.id ⟨.failed, none, some (panicText message)⟩ (.ok applied)
  refine Standing.done (Standing.lasts_closed (r, g)) ht hgrants fun u hu hg => ⟨[note], ?_⟩
  have hg' : g.status ≠ .completed := by
    rcases hcase with ⟨-, -, rfl⟩ | ⟨-, rfl⟩ <;> simp [cancelFinish]
  refine .of_standing hu hg (.aborted _) ?_
  rw [if_neg hg', List.filterMap_append, hl.2]
  rfl

theorem closing_ensures {engine : Engine H} (hclient : engine.adapter.registry.IsClient)
    (d : Definition) (h : Standing row₀ wid workflows₀ l s) (hc : c.IsOf row₀.id wid)
    (hl : IsOpen row₀.id l) (hreg : .registered row₀.id ∈ l) (hunreg : .unregistered row₀.id ∉ l) :
    Ensures (conduct H row₀.id wid) .owner
      ((engine.perform d c).closing (.here (.unregister row₀.id)))
      (fun report s => ∃ l, Ended row₀ wid workflows₀ (l ++ [.unregistered row₀.id]) report s)
      (fun _ s => ∃ reply,
        Standing row₀ wid workflows₀ (l ++ [.found row₀.id reply] ++ [.unregistered row₀.id]) s)
      s := by
  have hperm : ∀ t, (conduct H row₀.id wid).permits .owner Unit
      (.here (.unregister row₀.id)) t := fun t => by
    apply permits_of_note rfl
    intro _ _ hn
    cases hn
    exact ⟨rfl, rfl⟩
  refine ⟨_, _, perform_ensures hclient d h hc hl hreg hunreg, fun t => ⟨?_, ?_⟩⟩
  · rintro report ⟨l, ht, r, f, hgrants, hreport, hstamps⟩
    refine Standing.ask (Standing.lasts_closed (r, f)) ht hgrants (fun _ _ _ => hperm _)
      fun _ u u' _ _ _ hu' hg' => ?_
    apply Standing.done (Standing.lasts_closed (r, f)) hu' hg'
    intro v hv hg
    refine ⟨l, .of_standing hv hg hreport ?_⟩
    rw [← hstamps, List.filterMap_append]
    exact congrArg List.length (List.append_nil _)
  · rintro message ⟨reply, ht⟩
    refine Standing.ask Standing.lasts_true ht trivial (fun _ _ _ => hperm _)
      fun _ u u' _ _ _ hu' _ => ?_
    intro v hv
    exact ⟨reply, (Standing.stable (.inl rfl)).meanwhile hv hu'⟩

/-- The run of an execution after it was created. -/
def begun (engine : Engine H) (d : Definition) (request : RunRequest) (row : ExecutionRow) :
    Proc (Call H) (Except RunError Outcome) :=
  .askHere (.register row.id) fun _ =>
    .own false
      ((engine.perform d
        (.start row.id d.id row.startedAt request.payload (request.bindingsOver d))).closing
          (.here (.unregister row.id))) fun ended =>
        match ended with
        | .ok outcome => .done outcome
        | .error message => abort row.id message

theorem run_eq (engine : Engine H) (d : Definition) (request : RunRequest) :
    engine.run d request = .askStore (.createExecution (request.toNew d.id)) fun created =>
      match created with
      | .error e => .done (.error (.store e))
      | .ok row => engine.begun d request row := rfl

/-- The law of a run: once its execution is created, it ensures that it reports the end of the
execution, and that the execution is not in flight any more. -/
theorem begun_ensures {engine : Engine H} (hclient : engine.adapter.registry.IsClient)
    (d : Definition) (request : RunRequest) (h : Standing row₀ d.id workflows₀ l s)
    (hl : IsOpen row₀.id l) (hunreg : .unregistered row₀.id ∉ l) :
    Ensures (conduct H row₀.id d.id) .owner (engine.begun d request row₀)
      (fun report s => ∃ l, .unregistered row₀.id ∈ l ∧ Ended row₀ d.id workflows₀ l report s) X
      s := by
  refine Standing.ask Standing.lasts_true h trivial (fun t ht _ => ?_) fun _ t t' _ _ _ ht' _ => ?_
  · apply permits_of_note rfl
    intro _ _ hn
    cases hn
    refine ⟨rfl, rfl, ?_⟩
    rwa [ht.history]
  have hopen : IsOpen row₀.id (l ++ [.registered row₀.id]) := isOpen_append hl ⟨by simp, rfl⟩
  refine ⟨.inl rfl, _, _, closing_ensures hclient d ht' ⟨rfl, rfl⟩ hopen ?_ ?_, fun u => ⟨?_, ?_⟩⟩
  · exact List.mem_append_right _ (List.mem_singleton_self _)
  · simp [hunreg, Call.note?, LocalCall.note?]
  · rintro report ⟨l, hu, r, f, hgrants, hreport⟩
    apply Standing.done (Standing.lasts_closed (r, f)) hu hgrants
    intro v hv hg
    exact ⟨_, List.mem_append_right _ (List.mem_singleton_self _), hv, r, f, hg, hreport⟩
  · rintro message ⟨reply, hu⟩
    apply (abort_ensures message hu (isOpen_append (isOpen_append hopen ?_) ?_)).mono
    · intro _ _ habort
      obtain ⟨l', hended⟩ := habort
      exact ⟨_, by simp, hended⟩
    · intro _ _ hx
      exact hx
    · exact ⟨by simp, rfl⟩
    · exact ⟨by simp, rfl⟩

end Engine

end Workflow
