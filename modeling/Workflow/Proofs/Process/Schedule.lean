import Mathlib.Data.Fin.Tuple.Basic
import Workflow.Proofs.Process.Step

/-!
# What a scheduler does

A scheduler polls the processes of a world in turns and moves the clock when all of them wait.  All
that it does is a sequence of steps of a pool, so that what holds at every moment of every
interleaving holds of what is run.
-/

namespace Workflow

open Relation

universe u

variable {E : Type → Type 1} {W : Type} {S : Type u} {α β ρ : Type}
  {A : Role → (β : Type) → E β → S → β → S → Prop} {sim : W → S → Prop} {h : Host E W} {r : Role}
  {w : W} {s s' t : S}

/-- What a host answers may be answered in the states that stand for its worlds, and its clock is
no part of them. -/
structure Host.Follows (h : Host E W) (A : Role → (β : Type) → E β → S → β → S → Prop)
    (sim : W → S → Prop) : Prop where
  answer : ∀ r (β : Type) (c : E β) w s, sim w s →
    ∃ s', A r β c s (h.answer c w).1 s' ∧ sim (h.answer c w).2 s'
  advance : ∀ t w s, sim w s → sim (h.advance t w) s

namespace Proc

/-! ### Several steps -/

/-- Several steps of a process, with all the tasks that it leaves behind. -/
inductive Steps (A : Role → (β : Type) → E β → S → β → S → Prop) (r : Role) {α : Type} :
    Proc E α → S → List (Proc E Unit) → Proc E α → S → Prop where
  | refl (p : Proc E α) (s : S) : Steps A r p s [] p s
  | head {p q p' : Proc E α} {s t s' : S} {left more : List (Proc E Unit)} :
      Step A r p s left q t → Steps A r q t more p' s' → Steps A r p s (left ++ more) p' s'

namespace Steps

variable {p q p' : Proc E α} {left more : List (Proc E Unit)}

theorem single (hstep : Step A r p s left q t) : Steps A r p s left q t := by
  simpa using head hstep (.refl q t)

theorem trans (hpq : Steps A r p s left q t) (hqp' : Steps A r q t more p' s') :
    Steps A r p s (left ++ more) p' s' := by
  induction hpq with
  | refl => exact hqp'
  | head hstep _ ih =>
      rw [List.append_assoc]
      exact head hstep (ih hqp')

theorem limited {d : Option Deadline} {stop : Option (E Bool)} {body body' : Proc E β}
    {next : Ending β → Proc E α} (hbody : Steps A .guest body s left body' s') :
    Steps A r (.limited d stop body next) s left (.limited d stop body' next) s' := by
  induction hbody with
  | refl => exact .refl _ _
  | head hstep _ ih => exact .head (.limited hstep) ih

theorem part {n : Nat} {parts : Fin n → Proc E β} {next : (Fin n → β) → Proc E α} (i : Fin n)
    {q : Proc E β} (hpart : Steps A r.part (parts i) s left q s') :
    Steps A r (.all n parts next) s left (.all n (Function.update parts i q) next) s' := by
  generalize hp : parts i = p at hpart
  induction hpart generalizing parts with
  | refl p s =>
      rw [← hp, Function.update_eq_self]
      exact .refl _ _
  | head hstep _ ih =>
      have hrest := ih (Function.update_self i _ parts)
      rw [Function.update_idem] at hrest
      exact .head (.part i (hp ▸ hstep)) hrest

theorem attempt {body body' : Proc E β} {next : Except String β → Proc E α}
    (hbody : Steps A r body s left body' s') :
    Steps A r (.attempt body next) s left (.attempt body' next) s' := by
  induction hbody with
  | refl => exact .refl _ _
  | head hstep _ ih => exact .head (.attempt hstep) ih

theorem own {body body' : Proc E β} {next : Except String β → Proc E α}
    (hbody : Steps A r body s left body' s') :
    Steps A r (.own true body next) s left (.own true body' next) s' := by
  induction hbody with
  | refl => exact .refl _ _
  | head hstep _ ih => exact .head (.own hstep) ih

end Steps

/-! ### Polling -/

/-- A process after it was polled is one after several steps, of which the turn tells what was left
behind. -/
def Polled.Follows (polled : Polled E W α) (A : Role → (β : Type) → E β → S → β → S → Prop)
    (sim : W → S → Prop) (r : Role) (p : Proc E α) (s : S) (before : List (Proc E Unit)) : Prop :=
  ∃ left s', Steps A r p s left polled.proc s' ∧ sim polled.world s' ∧
    polled.turn.left = before ++ left

namespace Polled.Follows

variable {polled : Polled E W α} {p q : Proc E α} {left before : List (Proc E Unit)}

/-- What was polled after several steps. -/
theorem after (hsteps : Steps A r p s left q t)
    (h : polled.Follows A sim r q t (before ++ left)) : polled.Follows A sim r p s before := by
  obtain ⟨more, s', hmore, hs', hleft⟩ := h
  exact ⟨left ++ more, s', hsteps.trans hmore, hs', by rw [hleft, List.append_assoc]⟩

/-- What was polled after a step that leaves nothing behind. -/
theorem afterStep (hstep : Step A r p s [] q t) (h : polled.Follows A sim r q t before) :
    polled.Follows A sim r p s before :=
  after (.single hstep) (by rwa [List.append_nil])

theorem stays {turn : Turn E} (hs : sim w s) (hleft : turn.left = before) :
    (⟨p, turn, w⟩ : Polled E W α).Follows A sim r p s before :=
  ⟨[], s, .refl p s, hs, by rw [hleft, List.append_nil]⟩

end Polled.Follows

theorem results?_eq_some {n : Nat} {parts : Fin n → Proc E β} {results : Fin n → β}
    (h : results? n parts = some results) (i : Fin n) : parts i = .done (results i) := by
  induction n with
  | zero => exact i.elim0
  | succ n ih =>
      rw [results?] at h
      split at h
      · next b hb =>
          obtain ⟨rest, hrest, rfl⟩ := Option.map_eq_some_iff.mp h
          cases i using Fin.cases with
          | zero => exact hb
          | succ i => exact ih hrest i
      · cases h

theorem panicked?_eq_some {n : Nat} {parts : Fin n → Proc E β} {message : String}
    (h : panicked? n parts = some message) : ∃ i, parts i = .panic message := by
  induction n with
  | zero => cases h
  | succ n ih =>
      rw [panicked?] at h
      split at h
      · next m hm =>
          cases h
          exact ⟨0, hm⟩
      · obtain ⟨i, hi⟩ := ih h
        exact ⟨i.succ, hi⟩

/-- Parts that run side by side take several steps each, in some order. -/
inductive PartSteps (A : Role → (β : Type) → E β → S → β → S → Prop) (r : Role) {n : Nat} :
    (Fin n → Proc E β) → S → List (Proc E Unit) → (Fin n → Proc E β) → S → Prop where
  | refl (parts : Fin n → Proc E β) (s : S) : PartSteps A r parts s [] parts s
  | head {parts parts' : Fin n → Proc E β} {s t s' : S} {left more : List (Proc E Unit)}
      {q : Proc E β} (i : Fin n) :
      Steps A r.part (parts i) s left q t →
        PartSteps A r (Function.update parts i q) t more parts' s' →
          PartSteps A r parts s (left ++ more) parts' s'

namespace PartSteps

variable {n : Nat} {parts parts' : Fin n → Proc E β} {left : List (Proc E Unit)}

theorem all {next : (Fin n → β) → Proc E α} (h : PartSteps A r parts s left parts' s') :
    Steps A r (.all n parts next) s left (.all n parts' next) s' := by
  induction h with
  | refl parts s => exact .refl _ s
  | head i hpart _ ih => exact (Steps.part i hpart).trans ih

/-- The steps of the parts behind the first one. -/
theorem cons (p : Proc E β) (h : PartSteps A r parts s left parts' s') :
    PartSteps A r (Fin.cons p parts : Fin (n + 1) → Proc E β) s left (Fin.cons p parts') s' := by
  induction h with
  | refl parts s => exact .refl _ s
  | head i hpart _ ih =>
      apply PartSteps.head i.succ
      · rwa [Fin.cons_succ]
      · rwa [← Fin.cons_update]

end PartSteps

theorem pollAll_steps {n : Nat} {parts : Fin n → Proc E β} {poll : Fin n → W → Polled E W β}
    (hpoll : ∀ i w s, sim w s → (poll i w).Follows A sim r.part (parts i) s []) (hs : sim w s) :
    ∃ s', PartSteps A r parts s (pollAll n parts poll w).turn.left (pollAll n parts poll w).parts
      s' ∧ sim (pollAll n parts poll w).world s' := by
  induction n generalizing w s with
  | zero => exact ⟨s, .refl parts s, hs⟩
  | succ n ih =>
      obtain ⟨left, t, hfirst, ht, hleft⟩ := hpoll 0 w s hs
      rw [List.nil_append] at hleft
      have hupdate : Function.update parts 0 (poll 0 w).proc =
          Fin.cons (poll 0 w).proc fun i => parts i.succ := by
        funext i
        cases i using Fin.cases with
        | zero => rfl
        | succ i => rfl
      rw [pollAll]
      simp only
      split
      · next message hpanic =>
          refine ⟨t, ?_, ht⟩
          have hsteps := PartSteps.head 0 hfirst (.refl _ t)
          rw [List.append_nil, hupdate, hpanic, ← hleft] at hsteps
          exact hsteps
      · obtain ⟨s', hrest, hs'⟩ := ih (fun i => hpoll i.succ) ht
        refine ⟨s', ?_, hs'⟩
        rw [Turn.join, hleft]
        refine PartSteps.head 0 hfirst ?_
        rw [hupdate]
        exact hrest.cons _

/-- Who is asked whether to stop answers, if there is somebody to ask. -/
theorem stopAsked_follows (hf : h.Follows A sim) (r : Role) (stop : Option (E Bool))
    (hs : sim w s) : ∃ t, sim (stopAsked h stop w).2 t ∧
      ((stop = none ∧ (stopAsked h stop w).1 = false ∧ t = s) ∨
        ∃ c, stop = some c ∧ A r Bool c s (stopAsked h stop w).1 t) := by
  cases stop with
  | none => exact ⟨s, hs, .inl ⟨rfl, rfl, rfl⟩⟩
  | some c =>
      obtain ⟨t, hanswer, ht⟩ := hf.answer r Bool c w s hs
      exact ⟨t, ht, .inr ⟨c, rfl, hanswer⟩⟩

/-- A part that goes on under a limit may be stopped. -/
theorem limit_follows (hf : h.Follows A sim) {d d' : Option Deadline} {stop : Option (E Bool)}
    {body : Proc E β} {next : Ending β → Proc E α} {turn : Turn E} (hs : sim w s)
    (hstopped : ∀ world u, sim world u →
      (pollFrom h (next .stopped) (turn.leave body.startedTasks) world).Follows A sim r
        (next .stopped) u (turn.left ++ body.startedTasks))
    (hbegun : ∀ t, Steps A r (.limited d stop body next) t [] (.limited d' stop body next) t) :
    (if (stopAsked h stop w).1 = true then
      pollFrom h (next .stopped) (turn.leave body.startedTasks) (stopAsked h stop w).2
    else ⟨.limited d' stop body next, turn, (stopAsked h stop w).2⟩).Follows A sim r
      (.limited d stop body next) s turn.left := by
  obtain ⟨t, ht, hasked⟩ := stopAsked_follows hf r.part stop hs
  generalize stopAsked h stop w = asked at ht hasked
  obtain ⟨stopped, world⟩ := asked
  rcases hasked with ⟨rfl, rfl, rfl⟩ | ⟨c, rfl, hanswer⟩
  · exact .after (hbegun t) (.stays ht (List.append_nil _).symm)
  · cases stopped with
    | true => exact .after (.single (.limitStopped hanswer)) (hstopped world t ht)
    | false =>
        refine .afterStep (.limitNotStopped hanswer) ?_
        exact .after (hbegun t) (.stays ht (List.append_nil _).symm)

/-- Polling a process takes it several steps further. -/
theorem pollFrom_follows (hf : h.Follows A sim) (p : Proc E α) (turn : Turn E) (hs : sim w s) :
    (pollFrom h p turn w).Follows A sim r p s turn.left := by
  induction p generalizing r w s turn with
  | done a =>
      rw [pollFrom]
      exact .stays hs rfl
  | panic m =>
      rw [pollFrom]
      exact .stays hs rfl
  | ask c next ih =>
      rw [pollFrom]
      obtain ⟨t, hanswer, ht⟩ := hf.answer r _ c w s hs
      exact .afterStep (.ask hanswer) (ih _ turn.step ht)
  | wait d stop next ih =>
      rw [pollFrom]
      simp only
      split
      · exact .afterStep .elapsed (ih true turn.step hs)
      · obtain ⟨t, ht, hasked⟩ := stopAsked_follows hf r.part stop hs
        generalize stopAsked h stop w = asked at ht hasked
        obtain ⟨stopped, world⟩ := asked
        rcases hasked with ⟨rfl, rfl, rfl⟩ | ⟨c, rfl, hanswer⟩
        · exact .afterStep (.begun _) (.stays ht rfl)
        · cases stopped with
          | true => exact .afterStep (.stopped hanswer) (ih false turn.step ht)
          | false =>
              exact .afterStep (.notStopped hanswer) (.afterStep (.begun _) (.stays ht rfl))
  | limited d stop body next ihBody ih =>
      obtain ⟨left, t, hbody, ht, hleft⟩ := ihBody (r := .guest) .start hs
      rw [pollFrom]
      generalize pollFrom h body .start w = polled at hbody ht hleft
      obtain ⟨body', moved, world⟩ := polled
      have hjoin : (turn.join moved).left = turn.left ++ left := congrArg (turn.left ++ ·) hleft
      simp only
      refine .after (Steps.limited hbody) ?_
      rw [← hjoin]
      split
      · exact .afterStep .limitDone (ih _ (turn.join moved).step ht)
      · exact .afterStep .limitPanic (.stays ht rfl)
      · -- The body goes on: its limit may have passed, or its caller may want it to stop.
        have hstopped : ∀ world u, sim world u →
            (pollFrom h (next .stopped) ((turn.join moved).leave body'.startedTasks)
              world).Follows A sim r (next .stopped) u
                ((turn.join moved).left ++ body'.startedTasks) :=
          fun world u hu => ih .stopped ((turn.join moved).leave body'.startedTasks) hu
        cases d with
        | none =>
            simp only [Option.map_none, Bool.false_eq_true, if_false]
            exact limit_follows hf ht hstopped fun t => .refl _ t
        | some d =>
            simp only [Option.map_some]
            split
            · have hnext := ih (r := r) .timedOut ((turn.join moved).leave body'.startedTasks) ht
              exact .after (.single .limitElapsed) hnext
            · exact limit_follows hf ht hstopped fun t => .single (.limitBegun _)
  | all n parts next ihParts ih =>
      obtain ⟨t, hparts, ht⟩ := pollAll_steps (fun i w s hs => ihParts i .start hs) hs
      rw [pollFrom]
      refine .after hparts.all ?_
      split
      · next message hpanic =>
          obtain ⟨i, hi⟩ := panicked?_eq_some hpanic
          refine .after (.single (.partPanic i hi)) (.stays ht rfl)
      · split
        · next results hresults =>
            have hdone := results?_eq_some hresults
            exact .afterStep (.partsDone hdone) (ih results (turn.join _).step ht)
        · exact .stays ht rfl
  | attempt body next ihBody ih =>
      obtain ⟨left, t, hbody, ht, hleft⟩ := ihBody (r := r) .start hs
      rw [pollFrom]
      generalize pollFrom h body .start w = polled at hbody ht hleft
      obtain ⟨body', moved, world⟩ := polled
      have hjoin : (turn.join moved).left = turn.left ++ left := congrArg (turn.left ++ ·) hleft
      simp only
      refine .after (Steps.attempt hbody) ?_
      rw [← hjoin]
      split
      · exact .afterStep .attemptDone (ih _ (turn.join moved).step ht)
      · exact .afterStep .attemptPanic (ih _ (turn.join moved).step ht)
      · exact .stays ht rfl
  | own started body next ihBody ih =>
      cases started with
      | false =>
          rw [pollFrom]
          exact .afterStep .ownStarted (.stays hs rfl)
      | true =>
          obtain ⟨left, t, hbody, ht, hleft⟩ := ihBody (r := r) .start hs
          rw [pollFrom]
          generalize pollFrom h body .start w = polled at hbody ht hleft
          obtain ⟨body', moved, world⟩ := polled
          have hjoin : (turn.join moved).left = turn.left ++ left := congrArg (turn.left ++ ·) hleft
          simp only
          refine .after (Steps.own hbody) ?_
          rw [← hjoin]
          split
          · exact .afterStep .ownDone (ih _ (turn.join moved).step ht)
          · exact .afterStep .ownPanic (ih _ (turn.join moved).step ht)
          · exact .stays ht rfl

end Proc

/-! ### Turns -/

namespace Proc

/-- A process that has ended, with a result or with a panic. -/
def IsOver : Proc E α → Prop
  | .done _ => True
  | .panic _ => True
  | _ => False

/-- The tasks of a pool are the ones that are still polled, in any order, and some that have
ended. -/
def Keeps (tasks others : List (Proc E Unit)) : Prop :=
  ∃ ended, tasks.Perm (others ++ ended) ∧ ∀ t ∈ ended, t.IsOver

theorem Keeps.of_append {tasks others ended : List (Proc E Unit)}
    (h : Keeps tasks (others ++ ended)) (hover : ∀ t ∈ ended, t.IsOver) : Keeps tasks others := by
  obtain ⟨more, hperm, hmore⟩ := h
  refine ⟨ended ++ more, by rwa [← List.append_assoc], fun t ht => ?_⟩
  rcases List.mem_append.mp ht with ht | ht
  · exact hover t ht
  · exact hmore t ht

end Proc

namespace Pool

variable {opens : S → Proc E ρ → Prop} {p p' : Proc E α} {tasks left : List (Proc E Unit)}
  {requests : List (Proc E ρ)} {t' : Proc E Unit}

theorem reaches_main (hsteps : Proc.Steps A .owner p s left p' s') :
    Reaches A opens ⟨p, tasks, requests, s⟩ ⟨p', tasks ++ left, requests, s'⟩ := by
  induction hsteps generalizing tasks with
  | refl p s =>
      rw [List.append_nil]
      exact .refl
  | head hstep _ ih =>
      rw [← List.append_assoc]
      exact .head (.main hstep) ih

theorem reaches_task {u u' : Proc E Unit} {before after : List (Proc E Unit)}
    (hsteps : Proc.Steps A .guest u s left u' s') :
    Reaches A opens ⟨p, before ++ u :: after, requests, s⟩
      ⟨p, before ++ u' :: after ++ left, requests, s'⟩ := by
  induction hsteps generalizing after with
  | refl u s =>
      rw [List.append_nil]
      exact .refl
  | @head u v u' s t s' left more hstep _ ih =>
      have hfirst : Move A opens ⟨p, before ++ u :: after, requests, s⟩
          ⟨p, before ++ v :: after ++ left, requests, t⟩ := .task hstep
      have hrest : Reaches A opens ⟨p, before ++ v :: (after ++ left), requests, t⟩
          ⟨p, before ++ u' :: (after ++ left) ++ more, requests, s'⟩ := ih
      simp only [List.append_assoc, List.cons_append] at hfirst hrest ⊢
      exact .head hfirst hrest

theorem perm_polled {γ : Type u} (x : γ) (left turn base ended : List γ) :
    (turn ++ (x :: left ++ base) ++ ended).Perm (x :: (left ++ turn ++ base ++ ended)) := by
  simp only [List.append_assoc, List.cons_append]
  apply List.perm_middle.trans
  apply List.Perm.cons
  rw [← List.append_assoc, ← List.append_assoc left]
  exact List.perm_append_comm.append_right (base ++ ended)

/-- The tasks of a pool take their turns. -/
theorem reaches_pollOthers (hf : h.Follows A sim) (others : List (Proc E Unit))
    {base : List (Proc E Unit)} (hs : sim w s) (htasks : tasks.Perm (others ++ base)) :
    ∃ tasks' s', Reaches A opens ⟨p, tasks, requests, s⟩ ⟨p, tasks', requests, s'⟩ ∧
      sim (Proc.pollOthers h others w).2 s' ∧
      Proc.Keeps tasks' ((Proc.pollOthers h others w).1.left ++ base) := by
  induction others generalizing tasks base w s with
  | nil =>
      refine ⟨tasks, s, .refl, hs, [], ?_, by simp⟩
      simpa [Proc.pollOthers, Proc.Turn.start] using htasks
  | cons u rest ih =>
      obtain ⟨before, after, rfl⟩ := List.append_of_mem (htasks.mem_iff.mpr (by simp) : u ∈ tasks)
      have hothers : (before ++ after).Perm (rest ++ base) :=
        (List.perm_middle.symm.trans htasks).cons_inv
      obtain ⟨left, t, hsteps, ht, hleft⟩ := Proc.pollFrom_follows (r := .guest) hf u .start hs
      rw [Proc.pollOthers, Proc.poll]
      generalize Proc.pollFrom h u .start w = polled at hsteps ht hleft
      obtain ⟨u', moved, world⟩ := polled
      obtain rfl : moved.left = left := hleft.trans (List.nil_append left)
      have hpolled : (before ++ u' :: after ++ moved.left).Perm
          (rest ++ (u' :: moved.left ++ base)) := by
        simp only [List.append_assoc, List.cons_append]
        refine List.perm_middle.trans (List.Perm.trans (List.Perm.cons u' ?_) List.perm_middle.symm)
        have hmoved := hothers.append_right moved.left
        rw [List.append_assoc, List.append_assoc] at hmoved
        exact hmoved.trans (List.perm_append_comm.append_left rest)
      obtain ⟨tasks', s', hreach, hs', ended, hperm, hover⟩ := ih ht hpolled
      refine ⟨tasks', s', (reaches_task hsteps).trans hreach, hs', ?_⟩
      have hkept := hperm.trans (perm_polled u' _ _ base ended)
      have hover' : u'.IsOver → ∀ v ∈ u' :: ended, v.IsOver := by
        intro hu v hv
        rcases List.mem_cons.mp hv with rfl | hv
        · exact hu
        · exact hover v hv
      cases u' with
      | done a => exact ⟨.done a :: ended, hkept.trans List.perm_middle.symm, hover' trivial⟩
      | panic m => exact ⟨.panic m :: ended, hkept.trans List.perm_middle.symm, hover' trivial⟩
      | _ => exact ⟨ended, hkept, hover⟩

/-- Taking a process and its tasks as far as they can go at a tick is a sequence of steps. -/
theorem reaches_settle (hf : h.Follows A sim) (fuel : Nat) (p : Proc E α)
    {others : List (Proc E Unit)} (hs : sim w s) (htasks : Proc.Keeps tasks others) :
    ∃ tasks' s', Reaches A opens ⟨p, tasks, requests, s⟩
        ⟨(Proc.settle h fuel p others w).proc, tasks', requests, s'⟩ ∧
      sim (Proc.settle h fuel p others w).world s' ∧
      Proc.Keeps tasks' (Proc.settle h fuel p others w).others := by
  induction fuel generalizing p others w s tasks with
  | zero => exact ⟨tasks, s, .refl, hs, htasks⟩
  | succ fuel ih =>
      obtain ⟨left, t, hsteps, ht, hleft⟩ := Proc.pollFrom_follows (r := .owner) hf p .start hs
      obtain ⟨ended, hperm, hover⟩ := htasks
      rw [Proc.settle, Proc.poll]
      generalize Proc.pollFrom h p .start w = polled at hsteps ht hleft
      obtain ⟨p', moved, world⟩ := polled
      obtain rfl : moved.left = left := hleft.trans (List.nil_append left)
      have hmain : Reaches A opens ⟨p, tasks, requests, s⟩ ⟨p', tasks ++ moved.left, requests, t⟩ :=
        reaches_main hsteps
      have hmoved : (tasks ++ moved.left).Perm (others ++ moved.left ++ ended) := by
        have hleft := hperm.append_right moved.left
        rw [List.append_assoc] at hleft ⊢
        exact hleft.trans (List.perm_append_comm.append_left others)
      have hended : Proc.Keeps (tasks ++ moved.left) (moved.left ++ others) :=
        ⟨ended, hmoved.trans (List.perm_append_comm.append_right ended), hover⟩
      simp only
      split
      · exact ⟨tasks ++ moved.left, t, hmain, ht, hended⟩
      · exact ⟨tasks ++ moved.left, t, hmain, ht, hended⟩
      · obtain ⟨tasks', s', hreach, hs', hkeeps⟩ :=
          reaches_pollOthers hf (others ++ moved.left) ht hmoved
        have hkept := hkeeps.of_append hover
        split
        · obtain ⟨tasks'', s'', hreach', hs'', hkept'⟩ := ih p' hs' hkept
          exact ⟨tasks'', s'', (hmain.trans hreach).trans hreach', hs'', hkept'⟩
        · exact ⟨tasks', s', hmain.trans hreach, hs', hkept⟩

/-- All that a scheduler does until a process has ended is a sequence of steps. -/
theorem reaches_run (hf : h.Follows A sim) (fuel : Nat) (p : Proc E α)
    {others : List (Proc E Unit)} (hs : sim w s) (htasks : Proc.Keeps tasks others) :
    ∃ tasks' s', Reaches A opens ⟨p, tasks, requests, s⟩
        ⟨(Proc.run h fuel p others w).proc, tasks', requests, s'⟩ ∧
      sim (Proc.run h fuel p others w).world s' ∧
      Proc.Keeps tasks' (Proc.run h fuel p others w).others := by
  induction fuel generalizing p others w s tasks with
  | zero => exact ⟨tasks, s, .refl, hs, htasks⟩
  | succ fuel ih =>
      obtain ⟨tasks', s', hreach, hs', htasks'⟩ := reaches_settle hf (fuel + 1) p hs htasks
      rw [Proc.run]
      generalize Proc.settle h (fuel + 1) p others w = settled at hreach hs' htasks'
      obtain ⟨p', others', world⟩ := settled
      simp only
      split
      · exact ⟨tasks', s', hreach, hs', htasks'⟩
      · exact ⟨tasks', s', hreach, hs', htasks'⟩
      · split
        · exact ⟨tasks', s', hreach, hs', htasks'⟩
        · next tick _ =>
            obtain ⟨tasks'', s'', hreach', hs'', htasks''⟩ :=
              ih p' (hf.advance _ world s' hs') htasks'
            exact ⟨tasks'', s'', hreach.trans hreach', hs'', htasks''⟩

end Pool

end Workflow
