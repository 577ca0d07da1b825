import Workflow.Proofs.Process.Ensures
import Workflow.Proofs.Run.Scene
import Workflow.Run.Entry

/-!
# How a run and its surroundings behave

The rules for the run of one execution.  Only the run itself registers it, ends it as it likes and
stamps its workflow; everybody else may end executions only by cancelling them, and tells a run to
stop only after that.  From these rules follow the invariant of a run, and what is left unchanged by
all others while the run is between two of its own calls.
-/

namespace Workflow.Scene

variable {r : Role} {n : Note} {s s' : Scene} {id x : Uuid} {row₀ : ExecutionRow}

/-! ### Rows -/

theorem Alike.grants (h : s.Alike s') (id : Uuid) : s'.log.grants id = s.log.grants id := by
  rw [h.log]

theorem Unused.ne (h : s.Unused x) (hrow : s.memory.execution? id = some row₀) : x ≠ id := by
  rintro rfl
  rw [h.1] at hrow
  cases hrow

/-- A call that is noted ends an execution that is running, or leaves its row as it is. -/
theorem Noted.row (h : s.Noted r n s') (hrow : s.memory.execution? id = some row₀) :
    (s'.log.grants id = s.log.grants id ∧ s'.memory.execution? id = some row₀) ∨
      ∃ f now, n = .finished id f (.ok true) ∧ row₀.state = .ok .running ∧
        s'.log.grants id = s.log.grants id ++ [(r, f)] ∧
        s'.memory.execution? id = some (row₀.finish f now) := by
  have hlog := h.log
  have heff := h.effect
  cases n with
  | created reply =>
      obtain ⟨-, new, -, hunused, -, hmem⟩ := heff
      refine .inl ⟨by simp [hlog, Log.grants], ?_⟩
      rw [hmem, Memory.execution?_addExecution_of_ne (hunused.ne hrow), hrow]
  | finished x f reply =>
      obtain ⟨-, ⟨rfl, ⟨old, hold, hrun⟩, now, hmem⟩ | ⟨rfl, hmem, -⟩ | ⟨hmem, e, _, rfl, -, -⟩⟩ :=
        heff
      · by_cases hx : x = id
        · subst hx
          rw [hrow, Option.some.injEq] at hold
          subst hold
          refine .inr ⟨f, now, rfl, hrun, by simp [hlog], ?_⟩
          rw [hmem, Memory.execution?_ended, if_pos rfl, hrow]
          rfl
        · have hx' : id ≠ x := fun heq => hx heq.symm
          refine .inl ⟨by simp [hlog, Log.grants, hx], ?_⟩
          rw [hmem, Memory.execution?_ended, if_neg hx', hrow]
      · exact .inl ⟨by simp [hlog, Log.grants], by rw [hmem, hrow]⟩
      · exact .inl ⟨by simp [hlog, Log.grants], by rw [hmem, hrow]⟩
  | found x reply => exact .inl ⟨by simp [hlog, Log.grants], by rw [heff.2.1, hrow]⟩
  | touched w instant =>
      refine .inl ⟨by simp [hlog, Log.grants], ?_⟩
      rw [heff.2]
      exact hrow
  | registered x => exact .inl ⟨by simp [hlog, Log.grants], by rw [heff.1, hrow]⟩
  | unregistered x => exact .inl ⟨by simp [hlog, Log.grants], by rw [heff.1, hrow]⟩
  | signalled x => exact .inl ⟨by simp [hlog, Log.grants], by rw [heff.1, hrow]⟩

/-! ### Signals, executions in flight, and stamps -/

theorem Noted.signalled (h : s.Noted r n s') :
    s'.log.Signalled id ↔ s.log.Signalled id ∨ n = .signalled id := by
  rw [h.log, Log.signalled_append]
  simp [Log.Signalled, eq_comm]

theorem Noted.mem_notesOf (h : s.Noted r n s') (t : Role) (m : Note) :
    m ∈ s'.log.notesOf t ↔ m ∈ s.log.notesOf t ∨ (t = r ∧ m = n) := by
  simp [h.log, Log.mem_notesOf]

theorem Noted.mem_stopped (h : s.Noted r n s') :
    id ∈ s'.here.stopped ↔
      id ∈ s.here.stopped ∨ (n = .signalled id ∧ id ∈ s.here.inFlight) := by
  have heff := h.effect
  cases n with
  | signalled x =>
      rw [heff.2]
      by_cases hx : x ∈ s.here.inFlight
      · rw [if_pos hx, List.mem_cons, Note.signalled.injEq]
        constructor
        · rintro (rfl | hid)
          · exact .inr ⟨rfl, hx⟩
          · exact .inl hid
        · rintro (hid | ⟨rfl, -⟩)
          · exact .inr hid
          · exact .inl rfl
      · rw [if_neg hx, Note.signalled.injEq]
        constructor
        · exact .inl
        · rintro (hid | ⟨rfl, hid⟩)
          · exact hid
          · exact absurd hid hx
  | registered x => simp [heff.2]
  | unregistered x => simp [heff.2]
  | _ => simp [heff.1]

theorem Noted.mem_inFlight (h : s.Noted r n s') :
    id ∈ s'.here.inFlight ↔
      n = .registered id ∨ (id ∈ s.here.inFlight ∧ n ≠ .unregistered id) := by
  have heff := h.effect
  cases n with
  | registered x =>
      rw [heff.2, List.mem_append, List.mem_singleton, or_comm, Note.registered.injEq,
        eq_comm (a := id)]
      simp
  | unregistered x =>
      rw [heff.2, List.mem_filter, bne_iff_ne, ne_comm]
      simp
  | signalled x =>
      rw [heff.2]
      split <;> simp
  | _ => simp [heff.1]

theorem Noted.stamps (h : s.Noted r n s') :
    s'.log.stamps = s.log.stamps ++ Log.stamps [(r, n)] := by
  rw [h.log, Log.stamps_append]

theorem Noted.workflows (h : s.Noted r n s') :
    s'.memory.workflows =
      (Log.stamps [(r, n)]).foldl (fun ws e => Memory.stamped ws e.1 e.2) s.memory.workflows := by
  have heff := h.effect
  cases n with
  | created reply =>
      obtain ⟨-, row, -, -, -, hmem⟩ := heff
      rw [hmem]
      rfl
  | finished x f reply =>
      obtain ⟨-, ⟨-, -, now, hmem⟩ | ⟨-, hmem, -⟩ | ⟨hmem, -⟩⟩ := heff <;> rw [hmem] <;> rfl
  | found x reply =>
      rw [heff.2.1]
      rfl
  | touched w instant =>
      rw [heff.2]
      rfl
  | registered x =>
      rw [heff.1]
      rfl
  | unregistered x =>
      rw [heff.1]
      rfl
  | signalled x =>
      rw [heff.1]
      rfl

end Scene

/-! ### Rules -/

/-- Whether somebody may make a call, by its note: the owner of the run of an execution of a
workflow, its branches, and all others. -/
def Allowed (id wid : Uuid) (r : Role) : Note → Scene → Prop
  | .created _, _ => r = .guest
  | .finished x f _, s =>
    match r with
    | .owner =>
      x = id ∧ f.status.isTerminal = true ∧ (f.status = .cancelled → s.log.grants id ≠ [])
    | .branch => False
    | .guest => f = cancelFinish
    | .request => f = cancelFinish
  | .found _ _, _ => True
  | .touched w _, s =>
    r = .owner ∧ w = wid ∧ ∃ f, s.log.grants id = [(.owner, f)] ∧ f.status = .completed
  | .registered x, s => r = .owner ∧ x = id ∧ .unregistered id ∉ s.log.notesOf .owner
  | .unregistered x, _ => r = .owner ∧ x = id
  | .signalled x, s => (r = .guest ∨ r = .request) ∧ (x = id → s.log.grants id ≠ [])

/-- The rules for the run of an execution of a workflow.  A run that asks whether it was told to
stop does so while it can be told. -/
def conduct (H : Type) (id wid : Uuid) : Rules (Call H) Scene where
  answers := Scene.Answers
  permits r _ c s :=
    (∀ reply n, c.note? reply = some n → Allowed id wid r n s) ∧
      ∀ x, c.polled? = some x → r = .owner ∨ r = .branch →
        x = id ∧ (s.log.Signalled id → id ∈ s.here.stopped)

variable {H : Type} {id wid : Uuid} {r : Role} {s s' : Scene}

theorem conduct_answers : (conduct H id wid).answers = Scene.Answers := rfl

theorem moves_cases (h : (conduct H id wid).Moves r s s') :
    s.Alike s' ∨ ∃ n, Allowed id wid r n s ∧ s.Noted r n s' := by
  obtain ⟨β, c, reply, ⟨hperm, -⟩, hanswer⟩ := h
  cases hn : c.note? reply with
  | none => exact .inl (hanswer.alike hn)
  | some n => exact .inr ⟨n, hperm reply n hn, hanswer.noted hn⟩

/-! ### The invariant -/

/-- What always holds of an execution that began as a row: its row, its log, its signal and its
place among the executions in flight agree. -/
structure Consistent (row₀ : ExecutionRow) (wid : Uuid) (workflows₀ : List WorkflowRow)
    (s : Scene) : Prop where
  began : row₀.state = .ok .running
  row : (s.log.grants row₀.id = [] ∧ s.memory.execution? row₀.id = some row₀) ∨
    ∃ r f now, s.log.grants row₀.id = [(r, f)] ∧
      s.memory.execution? row₀.id = some (row₀.finish f now)
  granted : ∀ e ∈ s.log.grants row₀.id, e.2.status.isTerminal = true ∧
    ((e.1 = .owner ∧ e.2.status ≠ .cancelled) ∨
      ((e.1 = .guest ∨ e.1 = .request) ∧ e.2 = cancelFinish))
  stopped : row₀.id ∈ s.here.stopped → s.log.grants row₀.id ≠ []
  signalled : s.log.Signalled row₀.id → s.log.grants row₀.id ≠ []
  inFlight : row₀.id ∈ s.here.inFlight ↔ .registered row₀.id ∈ s.log.notesOf .owner ∧
    .unregistered row₀.id ∉ s.log.notesOf .owner
  workflows : s.memory.workflows =
    s.log.stamps.foldl (fun ws e => Memory.stamped ws e.1 e.2) workflows₀
  stamped : ∀ e ∈ s.log.stamps, e.1 = wid ∧
    ∃ f, s.log.grants row₀.id = [(.owner, f)] ∧ f.status = .completed
  touched : s.log.stamps = (s.log.notesOf .owner).filterMap Note.stamp?
  created : ∀ reply, .created reply ∈ s.log.notesOf .owner → reply = .ok row₀

namespace Consistent

variable {row₀ : ExecutionRow} {workflows₀ : List WorkflowRow}

theorem alike (h : Consistent row₀ wid workflows₀ s) (hs : s.Alike s') :
    Consistent row₀ wid workflows₀ s' where
  began := h.began
  row := by
    rw [hs.log, hs.execution?]
    exact h.row
  granted := by
    rw [hs.log]
    exact h.granted
  stopped := by
    rw [hs.stopped, hs.log]
    exact h.stopped
  signalled := by
    rw [hs.log]
    exact h.signalled
  inFlight := by
    rw [hs.inFlight, hs.log]
    exact h.inFlight
  workflows := by
    rw [hs.workflows, hs.log]
    exact h.workflows
  stamped := by
    rw [hs.log]
    exact h.stamped
  touched := by
    rw [hs.log]
    exact h.touched
  created := by
    rw [hs.log]
    exact h.created

/-- The row of an execution that has ended can be read, and one that has not is as it was. -/
theorem state (h : Consistent row₀ wid workflows₀ s) :
    (s.log.grants row₀.id = [] ∧ s.memory.execution? row₀.id = some row₀) ∨
      ∃ r f row, s.log.grants row₀.id = [(r, f)] ∧ s.memory.execution? row₀.id = some row ∧
        row.state = .ok f.status ∧ row.error = f.error ∧ f.status.isTerminal = true := by
  rcases h.row with hnone | ⟨r, f, now, hgrants, hrow⟩
  · exact .inl hnone
  · have hf := (h.granted (r, f) (by simp [hgrants])).1
    exact .inr ⟨r, f, _, hgrants, hrow, by simp, rfl, hf⟩

/-- A call that is noted is the one that ends the execution, or it leaves its row as it is. -/
theorem noted_row (h : Consistent row₀ wid workflows₀ s) {n : Note} (hs : s.Noted r n s') :
    (s'.log.grants row₀.id = s.log.grants row₀.id ∧
        s'.memory.execution? row₀.id = s.memory.execution? row₀.id) ∨
      ∃ f now, n = .finished row₀.id f (.ok true) ∧ s.log.grants row₀.id = [] ∧
        s'.log.grants row₀.id = [(r, f)] ∧
        s'.memory.execution? row₀.id = some (row₀.finish f now) := by
  rcases h.state with ⟨hnone, hrow⟩ | ⟨t, g, row, hgrants, hrow, hstate, -, hterm⟩
  · rcases hs.row hrow with ⟨hg, hr⟩ | ⟨f, now, hn, -, hg, hr⟩
    · exact .inl ⟨hg, hr.trans hrow.symm⟩
    · exact .inr ⟨f, now, hn, hnone, by rw [hg, hnone, List.nil_append], hr⟩
  · rcases hs.row hrow with ⟨hg, hr⟩ | ⟨f, now, -, hrun, -, -⟩
    · exact .inl ⟨hg, hr.trans hrow.symm⟩
    · rw [hstate, Except.ok.injEq] at hrun
      simp [hrun, ExecutionStatus.isTerminal] at hterm

theorem noted_ended (h : Consistent row₀ wid workflows₀ s) {n : Note} (hs : s.Noted r n s')
    (hended : s.log.grants row₀.id ≠ []) :
    s'.log.grants row₀.id = s.log.grants row₀.id ∧
      s'.memory.execution? row₀.id = s.memory.execution? row₀.id := by
  rcases h.noted_row hs with hsame | ⟨f, now, -, hnone, -⟩
  · exact hsame
  · exact absurd hnone hended

theorem granted_of_allowed {f : Finish} {reply : Except StoreError Bool}
    (hallowed : Allowed row₀.id wid r (.finished row₀.id f reply) s)
    (hnone : s.log.grants row₀.id = []) :
    f.status.isTerminal = true ∧ ((r = .owner ∧ f.status ≠ .cancelled) ∨
      ((r = .guest ∨ r = .request) ∧ f = cancelFinish)) := by
  cases r with
  | owner =>
      obtain ⟨-, hterm, hcancel⟩ := hallowed
      exact ⟨hterm, .inl ⟨rfl, fun hf => hcancel hf hnone⟩⟩
  | branch => exact hallowed.elim
  | guest =>
      obtain rfl : f = cancelFinish := hallowed
      exact ⟨rfl, .inr ⟨.inl rfl, rfl⟩⟩
  | request =>
      obtain rfl : f = cancelFinish := hallowed
      exact ⟨rfl, .inr ⟨.inr rfl, rfl⟩⟩

theorem noted (h : Consistent row₀ wid workflows₀ s) {n : Note}
    (hallowed : Allowed row₀.id wid r n s) (hs : s.Noted r n s') :
    Consistent row₀ wid workflows₀ s' where
  began := h.began
  row := by
    rcases h.noted_row hs with ⟨hg, hr⟩ | ⟨f, now, -, -, hg, hr⟩
    · rw [hg, hr]
      exact h.row
    · exact .inr ⟨r, f, now, hg, hr⟩
  granted := by
    rcases h.noted_row hs with ⟨hg, -⟩ | ⟨f, now, rfl, hnone, hg, -⟩
    · rw [hg]
      exact h.granted
    · rw [hg]
      intro e he
      rw [List.mem_singleton] at he
      exact he ▸ granted_of_allowed hallowed hnone
  stopped := by
    intro hid
    have hended : s.log.grants row₀.id ≠ [] := by
      rcases hs.mem_stopped.mp hid with hid | ⟨rfl, -⟩
      · exact h.stopped hid
      · exact hallowed.2 rfl
    rwa [(h.noted_ended hs hended).1]
  signalled := by
    intro hid
    have hended : s.log.grants row₀.id ≠ [] := by
      rcases hs.signalled.mp hid with hid | rfl
      · exact h.signalled hid
      · exact hallowed.2 rfl
    rwa [(h.noted_ended hs hended).1]
  inFlight := by
    rw [hs.mem_inFlight, hs.mem_notesOf, hs.mem_notesOf, h.inFlight]
    cases n with
    | registered x =>
        obtain ⟨rfl, rfl, hnot⟩ := hallowed
        simp [hnot]
    | unregistered x =>
        obtain ⟨rfl, rfl⟩ := hallowed
        simp
    | _ => simp
  workflows := by
    rw [hs.stamps, List.foldl_append, ← h.workflows]
    exact hs.workflows
  stamped := by
    intro e he
    have hended :
        e.1 = wid ∧ ∃ f, s.log.grants row₀.id = [(.owner, f)] ∧ f.status = .completed := by
      rw [hs.stamps, List.mem_append] at he
      rcases he with he | he
      · exact h.stamped e he
      · cases n with
        | touched w instant =>
            obtain ⟨-, rfl, hf⟩ := hallowed
            rw [Log.stamps_touched, List.mem_singleton] at he
            exact ⟨by rw [he], hf⟩
        | _ => simp [Log.stamps, Note.stamp?] at he
    obtain ⟨hw, f, hf, hcompleted⟩ := hended
    exact ⟨hw, f, by rw [(h.noted_ended hs (by simp [hf])).1, hf], hcompleted⟩
  touched := by
    rw [hs.stamps, hs.log, Log.notesOf_append, List.filterMap_append, h.touched]
    by_cases hr : r = .owner
    · subst hr
      rw [Log.notesOf_single_self]
      rfl
    · rw [Log.notesOf_single_of_ne _ hr]
      cases n with
      | touched w instant => exact absurd hallowed.1 hr
      | _ => simp [Log.stamps, Note.stamp?]
  created := by
    intro reply hreply
    rcases (hs.mem_notesOf .owner _).mp hreply with hbefore | ⟨rfl, rfl⟩
    · exact h.created reply hbefore
    · cases hallowed

/-- The invariant is kept by every call that may be made. -/
theorem moves (h : Consistent row₀ wid workflows₀ s) (hs : (conduct H row₀.id wid).Moves r s s') :
    Consistent row₀ wid workflows₀ s' := by
  rcases moves_cases hs with halike | ⟨n, hallowed, hnoted⟩
  · exact h.alike halike
  · exact h.noted hallowed hnoted

theorem stable (r : Role) :
    (conduct H row₀.id wid).Stable r (Consistent row₀ wid workflows₀) :=
  fun _ _ _ _ hs h => h.moves hs

/-- Once an execution has ended, nothing changes its row any more, and nobody ends it again. -/
theorem moves_ended (h : Consistent row₀ wid workflows₀ s)
    (hs : (conduct H row₀.id wid).Moves r s s') (hended : s.log.grants row₀.id ≠ []) :
    s'.log.grants row₀.id = s.log.grants row₀.id ∧
      s'.memory.execution? row₀.id = s.memory.execution? row₀.id := by
  rcases moves_cases hs with halike | ⟨n, -, hnoted⟩
  · exact ⟨halike.grants _, halike.execution? _⟩
  · exact h.noted_ended hnoted hended

end Consistent

theorem moves_log (h : (conduct H id wid).Moves r s s') : s.log <+: s'.log := by
  rcases moves_cases h with halike | ⟨n, -, hnoted⟩
  · exact ⟨[], by rw [halike.log, List.append_nil]⟩
  · rw [hnoted.log]
    exact List.prefix_append _ _

theorem stable_signalled (x : Uuid) :
    (conduct H id wid).Stable r fun s => s.log.Signalled x :=
  fun _ _ _ _ hs ⟨t, ht⟩ => ⟨t, (moves_log hs).subset ht⟩

theorem stable_mem_grants (x : Uuid) (e : Role × Finish) :
    (conduct H id wid).Stable r fun s => e ∈ s.log.grants x := by
  intro other _ s s' hs he
  rw [Log.mem_grants] at he ⊢
  exact (moves_log hs).subset he

theorem stable_ended (x : Uuid) :
    (conduct H id wid).Stable r fun s => s.log.grants x ≠ [] := by
  intro other hother s s' hs hended hnone
  obtain ⟨e, he⟩ := List.exists_mem_of_ne_nil _ hended
  have hmem : e ∈ s'.log.grants x := stable_mem_grants x e other hother s s' hs he
  rw [hnone] at hmem
  cases hmem

/-! ### Calls that may be made -/

theorem permits_of_note {β : Type} {c : Call H β} (hc : c.polled? = none)
    (hallowed : ∀ reply n, c.note? reply = some n → Allowed id wid r n s) :
    (conduct H id wid).permits r β c s := ⟨hallowed, by simp [hc]⟩

/-- What a process goes on with after a call, when something is known that all others leave as
it is. -/
theorem Consistent.ask {α β : Type} {row₀ : ExecutionRow} {workflows₀ : List WorkflowRow}
    {c : Call H β} {next : β → Proc (Call H) α} {Q : α → Scene → Prop} {X : String → Scene → Prop}
    {F : Scene → Prop} (hs : Consistent row₀ wid workflows₀ s) (hF : F s)
    (hstable : (conduct H row₀.id wid).Stable r F)
    (hperm : ∀ t, Consistent row₀ wid workflows₀ t → F t →
      (conduct H row₀.id wid).permits r β c t)
    (hnext : ∀ reply t t', Consistent row₀ wid workflows₀ t → F t →
      Consistent row₀ wid workflows₀ t' → Scene.Answers r β c t reply t' →
        Proc.Ensures (conduct H row₀.id wid) r (next reply) Q X t') :
    Proc.Ensures (conduct H row₀.id wid) r (.ask c next) Q X s := by
  intro t ht
  have hs' := (Consistent.stable r).meanwhile ht hs
  have hF' := hstable.meanwhile ht hF
  have hpermits := hperm t hs' hF'
  refine ⟨hpermits, fun reply t' hanswer => hnext reply t t' hs' hF' ?_ hanswer⟩
  exact hs'.moves ⟨β, c, reply, hpermits, hanswer⟩

end Workflow
