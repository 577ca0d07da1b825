import Mathlib.Data.List.Forall2
import Mathlib.Logic.Function.Basic
import Workflow.Proofs.Process.Ensures

/-!
# What may come of a process

A process yields what it may have as its result, whatever its calls are answered, whenever its waits
are over and in whatever order its parts take their steps.  This is defined along the process, so
that what a function yields is read off its text.  Nothing is missed by it: the result of a process
in any run of any pool is one that it yields (`Pool.yields_of_reaches`).
-/

namespace Workflow

universe u

variable {E : Type → Type 1} {α β : Type}

/-- A part with a limit may end so, if it may be finished as is said. -/
def Ending.May (finished : β → Prop) (deadline : Option Deadline) (stop : Option (E Bool)) :
    Ending β → Prop
  | .finished b => finished b
  | .timedOut => deadline.isSome
  | .stopped => stop.isSome

namespace Proc

/-- A part that may break off ends so, if it may be finished as is said. -/
def Ended (finished : β → Prop) : Except String β → Prop
  | .ok b => finished b
  | .error _ => True

/-- A process may have a result. -/
def Yields : {α : Type} → Proc E α → α → Prop
  | _, .done b, a => b = a
  | _, .panic _, _ => False
  | _, .ask _ next, a => ∃ reply, Yields (next reply) a
  | _, .wait _ stop next, a => ∃ elapsed, (elapsed = true ∨ stop.isSome) ∧ Yields (next elapsed) a
  | _, .limited deadline stop body next, a =>
    ∃ ending, Ending.May (Yields body) deadline stop ending ∧ Yields (next ending) a
  | _, .all _ parts next, a =>
    ∃ results, (∀ i, Yields (parts i) (results i)) ∧ Yields (next results) a
  | _, .attempt body next, a => ∃ ended, Ended (Yields body) ended ∧ Yields (next ended) a
  | _, .own _ body next, a => ∃ ended, Ended (Yields body) ended ∧ Yields (next ended) a

@[simp] theorem yields_done {a b : α} : (done b : Proc E α).Yields a ↔ b = a := Iff.rfl

@[simp] theorem not_yields_panic {message : String} {a : α} :
    ¬(panic message : Proc E α).Yields a := not_false

@[simp] theorem yields_ask {c : E β} {next : β → Proc E α} {a : α} :
    (ask c next).Yields a ↔ ∃ reply, (next reply).Yields a := Iff.rfl

/-- What comes first and what is passed on may be chosen in either order. -/
theorem exists_passed_on {ι : Sort u} {P : ι → Prop} {Q : ι → α → Prop} {Z : α → Prop} :
    (∃ x, P x ∧ ∃ a, Q x a ∧ Z a) ↔ ∃ a, (∃ x, P x ∧ Q x a) ∧ Z a := by
  constructor
  · rintro ⟨x, hx, a, ha, hz⟩
    exact ⟨a, ⟨x, hx, ha⟩, hz⟩
  · rintro ⟨a, ⟨x, hx, ha⟩, hz⟩
    exact ⟨x, hx, a, ha, hz⟩

theorem yields_bind {p : Proc E α} {f : α → Proc E β} {b : β} :
    (p.bind f).Yields b ↔ ∃ a, p.Yields a ∧ (f a).Yields b := by
  induction p with
  | done a => simp [bind]
  | panic message => simp [bind]
  | ask c next ih =>
      simp only [bind, yields_ask, ih]
      rw [exists_comm]
      simp only [exists_and_right]
  | wait deadline stop next ih =>
      simp only [bind, Yields, ih]
      exact exists_passed_on
  | limited deadline stop body next _ ih =>
      simp only [bind, Yields, ih]
      exact exists_passed_on
  | all n parts next _ ih =>
      simp only [bind, Yields, ih]
      exact exists_passed_on
  | attempt body next _ ih =>
      simp only [bind, Yields, ih]
      exact exists_passed_on
  | own started body next _ ih =>
      simp only [bind, Yields, ih]
      exact exists_passed_on

/-- Parts that run side by side yield one result each. -/
theorem yields_sideBySide {parts : List (Proc E α)} {results : List α} :
    (sideBySide parts).Yields results ↔ List.Forall₂ Yields parts results := by
  rw [sideBySide]
  simp only [Yields]
  constructor
  · rintro ⟨f, hparts, rfl⟩
    rw [List.forall₂_iff_get]
    refine ⟨by simp, fun i hi hi' => ?_⟩
    have hyields := hparts ⟨i, hi⟩
    simpa using hyields
  · intro hresults
    obtain ⟨hlength, hget⟩ := List.forall₂_iff_get.mp hresults
    refine ⟨fun i => results.get ⟨i, hlength ▸ i.2⟩, fun i => hget i i.2 (hlength ▸ i.2), ?_⟩
    apply List.ext_get
    · simp [hlength]
    · intro i hi hi'
      simp

/-! ### Runs -/

variable {S : Type u} {A : Role → (β : Type) → E β → S → β → S → Prop} {r : Role} {s s' : S}

/-- What may come of a process after a step may come of it before. -/
theorem Step.yields {p q : Proc E α} {left : List (Proc E Unit)} (hstep : Step A r p s left q s')
    {a : α} (ha : q.Yields a) : p.Yields a := by
  induction hstep with
  | ask _ => exact ⟨_, ha⟩
  | begun _ => exact ha
  | elapsed => exact ⟨true, .inl rfl, ha⟩
  | stopped _ => exact ⟨false, .inr rfl, ha⟩
  | notStopped _ => exact ha
  | limited _ ih =>
      obtain ⟨ending, hmay, hnext⟩ := ha
      refine ⟨ending, ?_, hnext⟩
      cases ending with
      | finished b => exact ih hmay
      | timedOut => exact hmay
      | stopped => exact hmay
  | limitBegun d' =>
      obtain ⟨ending, hmay, hnext⟩ := ha
      refine ⟨ending, ?_, hnext⟩
      cases ending with
      | finished b => exact hmay
      | timedOut => rfl
      | stopped => exact hmay
  | limitDone => exact ⟨.finished _, rfl, ha⟩
  | limitPanic => exact ha.elim
  | limitElapsed => exact ⟨.timedOut, rfl, ha⟩
  | limitStopped _ => exact ⟨.stopped, rfl, ha⟩
  | limitNotStopped _ => exact ha
  | @part _ _ _ n parts next s s' left q i _ ih =>
      obtain ⟨results, hparts, hnext⟩ := ha
      refine ⟨results, fun j => ?_, hnext⟩
      have hj := hparts j
      by_cases hji : j = i
      · subst hji
        rw [Function.update_self] at hj
        exact ih hj
      · rwa [Function.update_of_ne hji] at hj
  | partsDone hdone => exact ⟨_, fun i => by rw [hdone i]; rfl, ha⟩
  | partPanic => exact ha.elim
  | attempt _ ih =>
      obtain ⟨ended, hended, hnext⟩ := ha
      refine ⟨ended, ?_, hnext⟩
      cases ended with
      | ok b => exact ih hended
      | error message => trivial
  | attemptDone => exact ⟨.ok _, rfl, ha⟩
  | attemptPanic => exact ⟨.error _, trivial, ha⟩
  | ownStarted => exact ha
  | own _ ih =>
      obtain ⟨ended, hended, hnext⟩ := ha
      refine ⟨ended, ?_, hnext⟩
      cases ended with
      | ok b => exact ih hended
      | error message => trivial
  | ownDone => exact ⟨.ok _, rfl, ha⟩
  | ownPanic => exact ⟨.error _, trivial, ha⟩

end Proc

namespace Pool

variable {S : Type u} {A : Role → (β : Type) → E β → S → β → S → Prop} {ρ : Type}
  {opens : S → Proc E ρ → Prop} {a b : Pool E S α ρ}

/-- Whatever goes on in a pool, its process has no result but one that it yields. -/
theorem yields_of_reaches (h : Reaches A opens a b) {result : α} (hdone : b.main = .done result) :
    a.main.Yields result := by
  have hb : b.main.Yields result := by rw [hdone]; rfl
  clear hdone
  induction h with
  | refl => exact hb
  | tail _ hmove ih =>
      apply ih
      rcases move_cases hmove with ⟨_, hstep, -⟩ | ⟨_, _, _, _, _, -, -, hmain, -⟩ |
        ⟨_, _, _, _, _, -, -, hmain, -⟩ | ⟨_, -, rfl⟩
      · exact hstep.yields hb
      · rwa [hmain] at hb
      · rwa [hmain] at hb
      · exact hb

variable {tasks : List (Proc E Unit)} {requests : List (Proc E ρ)} {s : S} {result : α}

/-- A process that begins with a call has its result by what follows the answer, at a moment at
which all is kept that every call keeps. -/
theorem exists_reply {c : E β} {next : β → Proc E α} {F : S → Prop}
    (hkeep : ∀ r s s', (Rules.lax A).Moves r s s' → F s → F s') (hs : F s)
    (h : Reaches A opens ⟨.ask c next, tasks, requests, s⟩ b) (hdone : b.main = .done result) :
    ∃ reply t t', F t ∧ A .owner β c t reply t' ∧ (next reply).Yields result := by
  generalize ha : (⟨.ask c next, tasks, requests, s⟩ : Pool E S α ρ) = a at h
  have hmain : a.main = .ask c next := by rw [← ha]
  have hstate : F a.state := by rwa [← ha]
  clear ha
  induction h using Relation.ReflTransGen.head_induction_on with
  | refl =>
      rw [hdone] at hmain
      cases hmain
  | @head a a' hmove hrest ih =>
      have hstate' : F a'.state := by
        rcases hmove.moved with heq | ⟨r, hmoves⟩
        · rwa [heq]
        · exact hkeep r _ _ hmoves hstate
      rcases move_cases hmove with ⟨_, hstep, -⟩ | ⟨_, _, _, _, _, -, -, hsame, -⟩ |
        ⟨_, _, _, _, _, -, -, hsame, -⟩ | ⟨_, -, rfl⟩
      · rw [hmain] at hstep
        obtain ⟨main, tasks', requests', state⟩ := a'
        cases hstep with
        | ask hanswer => exact ⟨_, _, _, hstate, hanswer, yields_of_reaches hrest hdone⟩
      · exact ih (hsame.trans hmain) hstate'
      · exact ih (hsame.trans hmain) hstate'
      · exact ih hmain hstate'

/-- A process that looks something up, and then is over at once or goes on to other results: when it
has this result, everything is as if it had been over from the beginning. -/
theorem reaches_over_of_ask {c : E β} {next : β → Proc E α}
    (hnext : ∀ reply s s', A .owner β c s reply s' →
      s' = s ∧ ((∃ other, next reply = .done other) ∨ ¬(next reply).Yields result))
    (h : Reaches A opens ⟨.ask c next, tasks, requests, s⟩ b) (hdone : b.main = .done result) :
    Reaches A opens ⟨.done result, tasks, requests, s⟩ b := by
  generalize ha : (⟨.ask c next, tasks, requests, s⟩ : Pool E S α ρ) = a at h
  have hmain : a.main = .ask c next ∨ a.main = .done result := .inl (by rw [← ha])
  suffices hover : Reaches A opens { a with main := .done result } b by
    subst ha
    exact hover
  clear ha
  induction h using Relation.ReflTransGen.head_induction_on with
  | refl =>
      obtain ⟨main, tasks, requests, state⟩ := b
      obtain rfl : main = .done result := hdone
      exact .refl
  | @head a a' hmove hrest ih =>
      cases hmove with
      | @main p p' tasks left requests s s' hstep =>
          rcases hmain with rfl | rfl
          · cases hstep with
            | @ask _ _ _ _ _ _ _ reply hanswer =>
                have hyields := yields_of_reaches hrest hdone
                obtain ⟨rfl, ⟨other, hother⟩ | hnever⟩ := hnext _ _ _ hanswer
                · have heq : other = result := by simpa [hother] using hyields
                  have hlater := ih (.inr (hother.trans (by rw [heq])))
                  rwa [List.append_nil] at hlater
                · exact absurd hyields hnever
          · cases hstep
      | task hstep => exact .head (.task hstep) (ih hmain)
      | request hstep => exact .head (.request hstep) (ih hmain)
      | opened hopens => exact .head (.opened hopens) (ih hmain)

/-- A process that is over and has nothing beside it stays so. -/
theorem eq_of_reaches_over (h : Reaches A opens ⟨.done result, [], [], s⟩ b)
    (hopens : ∀ s q, ¬opens s q) : b = ⟨.done result, [], [], s⟩ := by
  induction h with
  | refl => rfl
  | tail _ hmove ih =>
      subst ih
      rcases move_cases hmove with ⟨_, hstep, -⟩ | ⟨_, _, _, _, _, hnone, -⟩ |
        ⟨_, _, _, _, _, hnone, -⟩ | ⟨_, hopen, -⟩
      · cases hstep
      · exact absurd hnone (by simp)
      · exact absurd hnone (by simp)
      · exact absurd hopen (hopens _ _)

end Pool

end Workflow
