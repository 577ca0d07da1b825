import Workflow.Local
import Workflow.Proofs.Run.Note
import Workflow.Proofs.Store.Memory

/-!
# Scenes

A scene is what the calls of a run change: a store in memory, the state of the process, and the
log of what was noted.  The store does not fail and never gives out an identifier twice; what the
clock, the network and the peers of handlers answer is not known.
-/

namespace Workflow

/-- A store, the state of the process, and a log. -/
structure Scene where
  memory : Memory
  here : Local
  log : Log

namespace Scene

/-- An identifier of which nothing is known: there is no row, no run and no signal. -/
def Unused (id : Uuid) (s : Scene) : Prop :=
  s.memory.execution? id = none ∧ id ∉ s.here.inFlight ∧ id ∉ s.here.stopped

/-- What a call may be answered, and the scene after it. -/
def Answers {H : Type} (r : Role) : (β : Type) → Call H β → Scene → β → Scene → Prop
  | _, .store c, s, reply, s' =>
    (∃ fresh now, s.Unused fresh ∧ Memory.answer fresh now c s.memory = (reply, s'.memory)) ∧
      s'.here = s.here ∧ s'.log = s.log ++ (c.note? reply).toList.map fun n => (r, n)
  | _, .here c, s, reply, s' =>
    Local.answer c s.here = (reply, s'.here) ∧ s'.memory = s.memory ∧
      s'.log = s.log ++ c.note?.toList.map fun n => (r, n)
  | _, .clock, s, _, s' => s' = s
  | _, .exchange _, s, _, s' => s' = s
  | _, .custom _, s, _, s' => s' = s

/-- Scenes that differ in nothing that concerns executions. -/
structure Alike (s s' : Scene) : Prop where
  executions : s'.memory.executions = s.memory.executions
  workflows : s'.memory.workflows = s.memory.workflows
  inFlight : s'.here.inFlight = s.here.inFlight
  stopped : s'.here.stopped = s.here.stopped
  log : s'.log = s.log

/-- What a call that is noted does to a store and to the state of the process. -/
def Effect : Note → Scene → Scene → Prop
  | .created reply, s, s' =>
    s'.here = s.here ∧ ∃ row, reply = .ok row ∧ s.Unused row.id ∧ row.state = .ok .running ∧
      s'.memory = s.memory.addExecution row
  | .finished id f reply, s, s' =>
    s'.here = s.here ∧
      ((reply = .ok true ∧ (∃ row, s.memory.execution? id = some row ∧ row.state = .ok .running) ∧
          ∃ now, s'.memory = s.memory.ended id f now) ∨
        (reply = .ok false ∧ s'.memory = s.memory ∧ ∀ row, s.memory.execution? id = some row →
          ∃ status, row.state = .ok status ∧ status.isTerminal = true) ∨
        (s'.memory = s.memory ∧ ∃ e row, reply = .error e ∧ s.memory.execution? id = some row ∧
          row.state = .error e))
  | .found id reply, s, s' =>
    s'.here = s.here ∧ s'.memory = s.memory ∧ reply = .ok (s.memory.execution? id)
  | .touched workflow instant, s, s' =>
    s'.here = s.here ∧
      s'.memory =
        { s.memory with workflows := Memory.stamped s.memory.workflows workflow instant }
  | .registered id, s, s' =>
    s'.memory = s.memory ∧ s'.here = { s.here with inFlight := s.here.inFlight ++ [id] }
  | .unregistered id, s, s' =>
    s'.memory = s.memory ∧
      s'.here = { s.here with inFlight := s.here.inFlight.filter fun e => e != id }
  | .signalled id, s, s' =>
    s'.memory = s.memory ∧
      s'.here =
        if id ∈ s.here.inFlight then { s.here with stopped := id :: s.here.stopped } else s.here

/-- The scene after a call that was noted. -/
structure Noted (r : Role) (n : Note) (s s' : Scene) : Prop where
  effect : Effect n s s'
  log : s'.log = s.log ++ [(r, n)]

variable {H β : Type} {r : Role} {c : Call H β} {reply : β} {s s' : Scene} {n : Note}

theorem alike_refl (s : Scene) : s.Alike s := ⟨rfl, rfl, rfl, rfl, rfl⟩

theorem Alike.execution? (h : s.Alike s') (id : Uuid) :
    s'.memory.execution? id = s.memory.execution? id := by
  simp only [Memory.execution?, h.executions]

/-- The store answers a call that is not noted without a change of executions and workflows. -/
theorem memory_of_note?_eq_none {β : Type} {c : StoreCall β} {reply : Except StoreError β}
    {fresh : Uuid} {now : Time.Instant} {m m' : Memory}
    (h : Memory.answer fresh now c m = (reply, m')) (hn : c.note? reply = none) :
    m'.executions = m.executions ∧ m'.workflows = m.workflows := by
  cases c <;> simp only [StoreCall.note?, reduceCtorEq] at hn <;>
    simp only [Memory.answer, Prod.mk.injEq] at h <;> simp [← h.2]

theorem Answers.alike (h : Answers r β c s reply s') (hn : c.note? reply = none) :
    s.Alike s' := by
  cases c with
  | store c =>
      obtain ⟨⟨fresh, now, -, h⟩, hhere, hlog⟩ := h
      change c.note? reply = none at hn
      obtain ⟨hexec, hflow⟩ := memory_of_note?_eq_none h hn
      exact ⟨hexec, hflow, by rw [hhere], by rw [hhere], by simpa [hn] using hlog⟩
  | here c =>
      obtain ⟨h, hmem, hlog⟩ := h
      change c.note? = none at hn
      have hlog' : s'.log = s.log := by simpa [hn] using hlog
      cases c <;> simp only [LocalCall.note?, reduceCtorEq] at hn <;>
        simp only [Local.answer, Prod.mk.injEq] at h <;>
        exact ⟨by rw [hmem], by rw [hmem], by rw [← h.2], by rw [← h.2], hlog'⟩
  | clock => exact h ▸ alike_refl s
  | exchange => exact h ▸ alike_refl s
  | custom => exact h ▸ alike_refl s

theorem effect_of_store {β : Type} {c : StoreCall β} {reply : Except StoreError β}
    {fresh : Uuid} {now : Time.Instant} (hfresh : s.Unused fresh)
    (h : Memory.answer fresh now c s.memory = (reply, s'.memory)) (hhere : s'.here = s.here)
    (hn : c.note? reply = some n) : Effect n s s' := by
  cases c with
  | createExecution new =>
      simp only [Memory.answer, Prod.mk.injEq] at h
      cases hn
      exact ⟨hhere, new.toRow fresh now, h.1.symm, hfresh, new.toRow_state fresh now, h.2.symm⟩
  | finishExecution id f =>
      cases hn
      refine ⟨hhere, ?_⟩
      rw [Memory.answer] at h
      cases hfinish : s.memory.finish id f now with
      | error e =>
          simp only [hfinish, Prod.mk.injEq] at h
          obtain ⟨row, hrow, hstate⟩ := Memory.finish_eq_error hfinish
          exact .inr (.inr ⟨h.2.symm, e, row, h.1.symm, hrow, hstate⟩)
      | ok p =>
          obtain ⟨applied, m⟩ := p
          simp only [hfinish, Prod.mk.injEq] at h
          obtain ⟨rfl, rfl⟩ := h
          rcases Memory.finish_eq_ok hfinish with ⟨rfl, hm, hrow⟩ | ⟨rfl, hm, hrow⟩
          · exact .inl ⟨rfl, hrow, now, hm⟩
          · exact .inr (.inl ⟨rfl, hm, hrow⟩)
  | getExecution id =>
      simp only [Memory.answer, Prod.mk.injEq] at h
      cases hn
      exact ⟨hhere, h.2.symm, h.1.symm⟩
  | touchLastRun id instant =>
      cases hn
      refine ⟨hhere, ?_⟩
      rw [Memory.answer, Memory.touch_eq] at h
      by_cases hw : (s.memory.workflow? id).isSome
      · simp only [hw, if_pos, Prod.mk.injEq] at h
        exact h.2.symm
      · simp only [hw, Bool.false_eq_true, if_false, Prod.mk.injEq] at h
        rw [← h.2, Memory.stamped_of_workflow?_eq_none (by simpa using hw)]
  | _ => simp [StoreCall.note?] at hn

theorem Answers.noted (h : Answers r β c s reply s') (hn : c.note? reply = some n) :
    s.Noted r n s' := by
  cases c with
  | store c =>
      obtain ⟨⟨fresh, now, hfresh, h⟩, hhere, hlog⟩ := h
      change c.note? reply = some n at hn
      exact ⟨effect_of_store hfresh h hhere hn, by simpa [hn] using hlog⟩
  | here c =>
      obtain ⟨h, hmem, hlog⟩ := h
      change c.note? = some n at hn
      refine ⟨?_, by simpa [hn] using hlog⟩
      cases c <;> simp only [LocalCall.note?, reduceCtorEq, Option.some.injEq] at hn <;>
        subst hn <;> simp only [Local.answer, Prod.mk.injEq] at h <;>
        exact ⟨hmem, by simpa using h.2.symm⟩
  | clock => simp [Call.note?] at hn
  | exchange => simp [Call.note?] at hn
  | custom => simp [Call.note?] at hn

/-- Who asks whether an execution was told to stop is told so exactly if it was. -/
theorem answers_isStopped {id : Uuid} {stopped : Bool}
    (h : Answers (H := H) r Bool (.here (.isStopped id)) s stopped s') :
    s' = s ∧ (stopped = true ↔ id ∈ s.here.stopped) := by
  obtain ⟨h, hmem, hlog⟩ := h
  simp only [Local.answer, Prod.mk.injEq] at h
  refine ⟨?_, by simp [← h.1]⟩
  cases s
  cases s'
  simp_all [LocalCall.note?]

end Scene

end Workflow
