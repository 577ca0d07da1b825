import Workflow.Proofs.Process.Progress

/-!
# What a process settles on

Among others that keep the state within bounds, a process settles on a property of its results if,
whatever its calls are answered within the bounds, it keeps the state within them too, never breaks
off and never has a result without the property.  This is defined along the process, and says the
same of every order in which its parts take their steps: what several parts settle on side by side
they settle on one after another (`settles_sideBySide`, `settles_inTurn`).

No part of such a process is given up for the time that it takes; a process that is given all the
time it needs is a patient one, and a run in which no time limit is reached is one of that
(`goes_patient`).  What is settled on holds for every run of a patient process (`Settles.goes`), and
there always is one that ends (`Settles.can_end`).
-/

namespace Workflow

open Relation

universe u

variable {E : Type → Type 1} {S : Type u} {α β γ : Type}
  {A : Role → (β : Type) → E β → S → β → S → Prop} {I : S → Prop} {r : Role} {s s' t : S}

/-- In every state within bounds, whatever a call is answered has a property, and the state stays
within the bounds. -/
def Replies (A : Role → (β : Type) → E β → S → β → S → Prop) (I : S → Prop) (c : E β)
    (P : β → Prop) : Prop :=
  ∀ r s b s', I s → A r β c s b s' → I s' ∧ P b

theorem Replies.mono {c : E β} {P P' : β → Prop} (h : Replies A I c P) (hP : ∀ b, P b → P' b) :
    Replies A I c P' := by
  intro r s b s' hs hanswer
  obtain ⟨hs', hb⟩ := h r s b s' hs hanswer
  exact ⟨hs', hP b hb⟩

namespace Proc

/-! ### Settling -/

/-- A process keeps the state within bounds, and has a result with a property unless it is given up
for the time that it takes. -/
def Settles (A : Role → (β : Type) → E β → S → β → S → Prop) (I : S → Prop) :
    {α : Type} → Proc E α → (α → Prop) → Prop
  | _, .done a, Q => Q a
  | _, .panic _, _ => False
  | _, .ask c next, Q => Replies A I c fun b => Settles A I (next b) Q
  | _, .wait _ stop next, Q =>
    Settles A I (next true) Q ∧
      ∀ c, stop = some c → Replies A I c fun stopped =>
        stopped = true → Settles A I (next false) Q
  | _, .limited _ stop body next, Q =>
    Settles A I body (fun b => Settles A I (next (.finished b)) Q) ∧
      ∀ c, stop = some c → Replies A I c (· = false)
  | _, .all (β := β) n parts next, Q =>
    ∃ P : Fin n → β → Prop, (∀ i, Settles A I (parts i) (P i)) ∧
      ∀ results, (∀ i, P i (results i)) → Settles A I (next results) Q
  | _, .attempt body next, Q => Settles A I body fun b => Settles A I (next (.ok b)) Q
  | _, .own _ body next, Q => Settles A I body fun b => Settles A I (next (.ok b)) Q

@[simp] theorem settles_done {a : α} {Q : α → Prop} :
    (done a : Proc E α).Settles A I Q ↔ Q a := Iff.rfl

theorem Settles.mono {p : Proc E α} {Q Q' : α → Prop} (h : p.Settles A I Q)
    (hQ : ∀ a, Q a → Q' a) : p.Settles A I Q' := by
  induction p with
  | done a => exact hQ a h
  | panic message => exact h
  | ask c next ih => exact Replies.mono h fun b hb => ih b hb hQ
  | wait deadline stop next ih =>
      exact ⟨ih true h.1 hQ, fun c hc => (h.2 c hc).mono fun _ hb hstop => ih false (hb hstop) hQ⟩
  | limited deadline stop body next ihBody ih =>
      exact ⟨ihBody h.1 fun b hb => ih _ hb hQ, h.2⟩
  | all n parts next ihParts ih =>
      obtain ⟨P, hparts, hnext⟩ := h
      exact ⟨P, hparts, fun results hresults => ih results (hnext results hresults) hQ⟩
  | attempt body next ihBody ih => exact ihBody h fun b hb => ih _ hb hQ
  | own started body next ihBody ih => exact ihBody h fun b hb => ih _ hb hQ

theorem settles_bind {p : Proc E α} {f : α → Proc E β} {Q : β → Prop} :
    (p.bind f).Settles A I Q ↔ p.Settles A I fun a => (f a).Settles A I Q := by
  induction p with
  | done a => rfl
  | panic message => rfl
  | ask c next ih => simp only [bind, Settles, ih]
  | wait deadline stop next ih => simp only [bind, Settles, ih]
  | limited deadline stop body next _ ih => simp only [bind, Settles, ih]
  | all n parts next _ ih => simp only [bind, Settles, ih]
  | attempt body next _ ih => simp only [bind, Settles, ih]
  | own started body next _ ih => simp only [bind, Settles, ih]

/-- What the first of two processes settles on is what the second begins with. -/
theorem Settles.andThen {p : Proc E α} {f : α → Proc E β} {Q : α → Prop} {Z : β → Prop}
    (hp : p.Settles A I Q) (hf : ∀ a, Q a → (f a).Settles A I Z) : (p.bind f).Settles A I Z :=
  settles_bind.mpr (hp.mono hf)

/-! ### Patience -/

/-- A process whose parts with a time limit are given all the time that they need. -/
def patient : {α : Type} → Proc E α → Proc E α
  | _, .done a => .done a
  | _, .panic message => .panic message
  | _, .ask c next => .ask c fun b => (next b).patient
  | _, .wait deadline stop next => .wait deadline stop fun b => (next b).patient
  | _, .limited _ stop body next => .limited none stop body.patient fun e => (next e).patient
  | _, .all n parts next =>
    .all n (fun i => (parts i).patient) fun results => (next results).patient
  | _, .attempt body next => .attempt body.patient fun e => (next e).patient
  | _, .own started body next => .own started body.patient fun e => (next e).patient

@[simp] theorem patient_bind (p : Proc E α) (f : α → Proc E β) :
    (p.bind f).patient = p.patient.bind fun a => (f a).patient := by
  induction p with
  | done => rfl
  | panic => rfl
  | ask _ _ ih => simp only [bind, patient, ih]
  | wait _ _ _ ih => simp only [bind, patient, ih]
  | limited _ _ _ _ _ ih => simp only [bind, patient, ih]
  | all _ _ _ _ ih => simp only [bind, patient, ih]
  | attempt _ _ _ ih => simp only [bind, patient, ih]
  | own _ _ _ _ ih => simp only [bind, patient, ih]

theorem eq_done_of_patient {p : Proc E α} {a : α} (h : p.patient = done a) : p = done a := by
  cases p <;> cases h
  rfl

theorem eq_panic_of_patient {p : Proc E α} {message : String} (h : p.patient = panic message) :
    p = panic message := by
  cases p <;> cases h
  rfl

theorem patient_update {n : Nat} (parts : Fin n → Proc E β) (i : Fin n) (q : Proc E β) :
    Function.update (fun j => (parts j).patient) i q.patient =
      fun j => (Function.update parts i q j).patient :=
  funext fun j => (Function.apply_update (fun _ => patient) parts i q j).symm

/-! ### Runs -/

/-- A moment of a process among others: it takes a step, or the others change the state within its
bounds. -/
inductive Beat (A : Role → (β : Type) → E β → S → β → S → Prop) (I : S → Prop) (r : Role) :
    Proc E α × S → Proc E α × S → Prop where
  | step {p q : Proc E α} {s t : S} {left : List (Proc E Unit)} :
      Step A r p s left q t → Beat A I r (p, s) (q, t)
  | meanwhile {p : Proc E α} {s t : S} : I t → Beat A I r (p, s) (p, t)

/-- Where a process comes to among others, and in which state. -/
def Goes (A : Role → (β : Type) → E β → S → β → S → Prop) (I : S → Prop) (r : Role) :
    Proc E α × S → Proc E α × S → Prop :=
  ReflTransGen (Beat A I r)

theorem Steps.goes {p q : Proc E α} {left : List (Proc E Unit)} (h : Steps A r p s left q t) :
    Goes A I r (p, s) (q, t) := by
  induction h with
  | refl => exact .refl
  | head hstep _ ih => exact ih.head (.step hstep)

/-- In a step a part is given up since its time limit has passed. -/
inductive Overdue : {α : Type} → Proc E α → Proc E α → Prop where
  | here {α β : Type} {d : Deadline} {stop : Option (E Bool)} {body : Proc E β}
      {next : Ending β → Proc E α} :
      Overdue (.limited (some d) stop body next) (next .timedOut)
  | limited {α β : Type} {d : Option Deadline} {stop : Option (E Bool)} {body body' : Proc E β}
      {next : Ending β → Proc E α} :
      Overdue body body' → Overdue (.limited d stop body next) (.limited d stop body' next)
  | part {α β : Type} {n : Nat} {parts : Fin n → Proc E β} {next : (Fin n → β) → Proc E α}
      (i : Fin n) {q : Proc E β} :
      Overdue (parts i) q → Overdue (.all n parts next) (.all n (Function.update parts i q) next)
  | attempt {α β : Type} {body body' : Proc E β} {next : Except String β → Proc E α} :
      Overdue body body' → Overdue (.attempt body next) (.attempt body' next)
  | own {α β : Type} {body body' : Proc E β} {next : Except String β → Proc E α} :
      Overdue body body' → Overdue (.own true body next) (.own true body' next)

/-- A step in which no part is given up for its time is one of the patient process, unless it only
looks at the clock. -/
theorem Step.patient {p q : Proc E α} {left : List (Proc E Unit)} (hstep : Step A r p s left q t) :
    Overdue p q ∨ (q.patient = p.patient ∧ t = s) ∨
      ∃ left', Step A r p.patient s left' q.patient t := by
  induction hstep with
  | ask hanswer => exact .inr (.inr ⟨_, .ask hanswer⟩)
  | begun d' => exact .inr (.inr ⟨_, .begun d'⟩)
  | elapsed => exact .inr (.inr ⟨_, .elapsed⟩)
  | stopped hanswer => exact .inr (.inr ⟨_, .stopped hanswer⟩)
  | notStopped hanswer => exact .inr (.inr ⟨_, .notStopped hanswer⟩)
  | limited _ ih =>
      rcases ih with hlate | ⟨hsame, rfl⟩ | ⟨left', hbody⟩
      · exact .inl (.limited hlate)
      · exact .inr (.inl ⟨by simp only [Proc.patient, hsame], rfl⟩)
      · exact .inr (.inr ⟨left', .limited hbody⟩)
  | limitBegun d' => exact .inr (.inl ⟨rfl, rfl⟩)
  | limitDone => exact .inr (.inr ⟨_, .limitDone⟩)
  | limitPanic => exact .inr (.inr ⟨_, .limitPanic⟩)
  | limitElapsed => exact .inl .here
  | limitStopped hanswer => exact .inr (.inr ⟨_, .limitStopped hanswer⟩)
  | limitNotStopped hanswer => exact .inr (.inr ⟨_, .limitNotStopped hanswer⟩)
  | @part _ _ _ n parts next _ _ _ q i _ ih =>
      rcases ih with hlate | ⟨hsame, rfl⟩ | ⟨left', hpart⟩
      · exact .inl (.part i hlate)
      · refine .inr (.inl ⟨?_, rfl⟩)
        rw [Proc.patient, Proc.patient, ← patient_update, hsame, Function.update_eq_self]
      · refine .inr (.inr ⟨left', ?_⟩)
        rw [Proc.patient, Proc.patient, ← patient_update]
        exact .part i hpart
  | partsDone hdone => exact .inr (.inr ⟨_, .partsDone fun i => by rw [hdone i]; rfl⟩)
  | partPanic i hpanic => exact .inr (.inr ⟨_, .partPanic i (by rw [hpanic]; rfl)⟩)
  | attempt _ ih =>
      rcases ih with hlate | ⟨hsame, rfl⟩ | ⟨left', hbody⟩
      · exact .inl (.attempt hlate)
      · exact .inr (.inl ⟨by simp only [Proc.patient, hsame], rfl⟩)
      · exact .inr (.inr ⟨left', .attempt hbody⟩)
  | attemptDone => exact .inr (.inr ⟨_, .attemptDone⟩)
  | attemptPanic => exact .inr (.inr ⟨_, .attemptPanic⟩)
  | ownStarted => exact .inr (.inr ⟨_, .ownStarted⟩)
  | own _ ih =>
      rcases ih with hlate | ⟨hsame, rfl⟩ | ⟨left', hbody⟩
      · exact .inl (.own hlate)
      · exact .inr (.inl ⟨by simp only [Proc.patient, hsame], rfl⟩)
      · exact .inr (.inr ⟨left', .own hbody⟩)
  | ownDone => exact .inr (.inr ⟨_, .ownDone⟩)
  | ownPanic => exact .inr (.inr ⟨_, .ownPanic⟩)

/-- A run in which no part is given up for its time is one of the patient process. -/
theorem goes_patient {p q : Proc E α}
    (h : ReflTransGen (fun a b : Proc E α × S => Beat A I r a b ∧ ¬Overdue a.1 b.1) (p, s) (q, t)) :
    Goes A I r (p.patient, s) (q.patient, t) := by
  generalize hb : (q, t) = b at h
  induction h generalizing q t with
  | refl =>
      cases hb
      exact .refl
  | @tail a _ _ hbeat ih =>
      subst hb
      obtain ⟨hbeat, htimely⟩ := hbeat
      cases hbeat with
      | step hstep =>
          rcases hstep.patient with hlate | ⟨hsame, rfl⟩ | ⟨left', hstep⟩
          · exact absurd hlate htimely
          · rw [hsame]
            exact ih rfl
          · exact (ih rfl).tail (.step hstep)
      | meanwhile ht => exact (ih rfl).tail (.meanwhile ht)

/-- A step of a patient process keeps what it settles on, stays within the bounds and leaves nothing
behind. -/
theorem Settles.step {p q : Proc E α} {Q : α → Prop} {left : List (Proc E Unit)}
    (h : p.Settles A I Q) (hs : I s) (hstep : Step A r p.patient s left q t) :
    left = [] ∧ I t ∧ ∃ p' : Proc E α, q = p'.patient ∧ p'.Settles A I Q := by
  induction p generalizing r s t left with
  | done a => cases hstep
  | panic message => cases hstep
  | ask c next ih =>
      cases hstep with
      | ask hanswer =>
          obtain ⟨ht, hnext⟩ := h _ _ _ _ hs hanswer
          exact ⟨rfl, ht, _, rfl, hnext⟩
  | wait deadline stop next ih =>
      cases hstep with
      | begun d' => exact ⟨rfl, hs, .wait d' stop next, rfl, h⟩
      | elapsed => exact ⟨rfl, hs, _, rfl, h.1⟩
      | stopped hanswer =>
          obtain ⟨ht, hnext⟩ := h.2 _ rfl _ _ _ _ hs hanswer
          exact ⟨rfl, ht, _, rfl, hnext rfl⟩
      | notStopped hanswer =>
          exact ⟨rfl, (h.2 _ rfl _ _ _ _ hs hanswer).1, .wait deadline _ next, rfl, h⟩
  | limited deadline stop body next ihBody ih =>
      rw [patient] at hstep
      generalize hp : body.patient = body₀ at hstep
      cases hstep with
      | limited hbody =>
          subst hp
          obtain ⟨rfl, ht, body', rfl, hbody'⟩ := ihBody h.1 hs hbody
          exact ⟨rfl, ht, .limited deadline stop body' next, rfl, hbody', h.2⟩
      | limitDone =>
          obtain rfl := eq_done_of_patient hp
          exact ⟨rfl, hs, _, rfl, h.1⟩
      | limitPanic =>
          obtain rfl := eq_panic_of_patient hp
          exact h.1.elim
      | limitStopped hanswer => cases (h.2 _ rfl _ _ _ _ hs hanswer).2
      | limitNotStopped hanswer =>
          subst hp
          exact ⟨rfl, (h.2 _ rfl _ _ _ _ hs hanswer).1, .limited deadline _ body next, rfl, h⟩
  | all n parts next ihParts ih =>
      obtain ⟨P, hparts, hnext⟩ := h
      rw [patient] at hstep
      generalize hp : (fun i => (parts i).patient) = parts₀ at hstep
      cases hstep with
      | part i hpart =>
          subst hp
          obtain ⟨rfl, ht, p', rfl, hp'⟩ := ihParts i (hparts i) hs hpart
          refine ⟨rfl, ht, .all n (Function.update parts i p') next, ?_, P, fun j => ?_, hnext⟩
          · rw [patient, patient_update]
          · by_cases hj : j = i
            · subst hj
              rwa [Function.update_self]
            · rw [Function.update_of_ne hj]
              exact hparts j
      | @partsDone _ _ _ _ _ _ _ results hdone =>
          refine ⟨rfl, hs, _, rfl, hnext results fun i => ?_⟩
          have hi := hparts i
          rwa [eq_done_of_patient ((congrFun hp i).trans (hdone i))] at hi
      | partPanic i hpanic =>
          have hi := hparts i
          rw [eq_panic_of_patient ((congrFun hp i).trans hpanic)] at hi
          exact hi.elim
  | attempt body next ihBody ih =>
      rw [patient] at hstep
      generalize hp : body.patient = body₀ at hstep
      cases hstep with
      | attempt hbody =>
          subst hp
          obtain ⟨rfl, ht, body', rfl, hbody'⟩ := ihBody h hs hbody
          exact ⟨rfl, ht, .attempt body' next, rfl, hbody'⟩
      | attemptDone =>
          obtain rfl := eq_done_of_patient hp
          exact ⟨rfl, hs, _, rfl, h⟩
      | attemptPanic =>
          obtain rfl := eq_panic_of_patient hp
          exact h.elim
  | own started body next ihBody ih =>
      rw [patient] at hstep
      generalize hp : body.patient = body₀ at hstep
      cases hstep with
      | ownStarted =>
          subst hp
          exact ⟨rfl, hs, .own true body next, rfl, h⟩
      | own hbody =>
          subst hp
          obtain ⟨rfl, ht, body', rfl, hbody'⟩ := ihBody h hs hbody
          exact ⟨rfl, ht, .own true body' next, rfl, hbody'⟩
      | ownDone =>
          obtain rfl := eq_done_of_patient hp
          exact ⟨rfl, hs, _, rfl, h⟩
      | ownPanic =>
          obtain rfl := eq_panic_of_patient hp
          exact h.elim

/-- Whatever a patient process comes to settles on what it settles on. -/
theorem Settles.goes {p q : Proc E α} {Q : α → Prop} (h : p.Settles A I Q) (hs : I s)
    (hgoes : Goes A I r (p.patient, s) (q, t)) :
    I t ∧ ∃ p' : Proc E α, q = p'.patient ∧ p'.Settles A I Q := by
  generalize hb : (q, t) = b at hgoes
  induction hgoes generalizing q t with
  | refl =>
      cases hb
      exact ⟨hs, p, rfl, h⟩
  | @tail a _ _ hbeat ih =>
      subst hb
      cases hbeat with
      | step hstep =>
          obtain ⟨ht, p', rfl, hp'⟩ := ih rfl
          exact (hp'.step ht hstep).2
      | meanwhile ht => exact ⟨ht, (ih rfl).2⟩

/-- A patient process has no result without what it settles on. -/
theorem Settles.result {p : Proc E α} {Q : α → Prop} {a : α} (h : p.Settles A I Q) (hs : I s)
    (hgoes : Goes A I r (p.patient, s) (.done a, t)) : Q a := by
  obtain ⟨-, p', hp', hsettles⟩ := h.goes hs hgoes
  rwa [eq_done_of_patient hp'.symm] at hsettles

/-- A patient process can be brought to its end wherever it stands. -/
theorem Settles.can_end {p q : Proc E α} {Q : α → Prop}
    (hA : ∀ r (β : Type) (c : E β) s, ∃ b s', A r β c s b s') (h : p.Settles A I Q) (hs : I s)
    (hgoes : Goes A I r (p.patient, s) (q, t)) :
    ∃ a s', Goes A I r (q, t) (.done a, s') ∧ Q a := by
  obtain ⟨left, last, s', hsteps, hover⟩ := Proc.can_end hA q r t
  have hlast : Goes A I r (q, t) (last, s') := hsteps.goes
  obtain ⟨-, p', hp', hsettles⟩ := h.goes hs (hgoes.trans hlast)
  cases p' with
  | done a =>
      subst hp'
      exact ⟨a, s', hlast, hsettles⟩
  | panic message => exact hsettles.elim
  | _ =>
      subst hp'
      exact hover.elim

/-! ### Where a process with a sequel stands -/

/-- A step of a process with a sequel is one of the process, or of the sequel when that is over. -/
theorem Step.of_bind {p : Proc E α} {f : α → Proc E β} {q : Proc E β} {left : List (Proc E Unit)}
    (hstep : Step A r (p.bind f) s left q t) :
    (∃ a, p = .done a ∧ Step A r (f a) s left q t) ∨
      ∃ p', Step A r p s left p' t ∧ q = p'.bind f := by
  cases p with
  | done a => exact .inl ⟨a, rfl, hstep⟩
  | panic message => cases hstep
  | ask c next =>
      cases hstep with
      | ask hanswer => exact .inr ⟨_, .ask hanswer, rfl⟩
  | wait deadline stop next =>
      cases hstep with
      | begun d' => exact .inr ⟨_, .begun d', rfl⟩
      | elapsed => exact .inr ⟨_, .elapsed, rfl⟩
      | stopped hanswer => exact .inr ⟨_, .stopped hanswer, rfl⟩
      | notStopped hanswer => exact .inr ⟨_, .notStopped hanswer, rfl⟩
  | limited deadline stop body next =>
      cases hstep with
      | limited hbody => exact .inr ⟨_, .limited hbody, rfl⟩
      | limitBegun d' => exact .inr ⟨_, .limitBegun d', rfl⟩
      | limitDone => exact .inr ⟨_, .limitDone, rfl⟩
      | limitPanic => exact .inr ⟨_, .limitPanic, rfl⟩
      | limitElapsed => exact .inr ⟨_, .limitElapsed, rfl⟩
      | limitStopped hanswer => exact .inr ⟨_, .limitStopped hanswer, rfl⟩
      | limitNotStopped hanswer => exact .inr ⟨_, .limitNotStopped hanswer, rfl⟩
  | all n parts next =>
      cases hstep with
      | part i hpart => exact .inr ⟨_, .part i hpart, rfl⟩
      | partsDone hdone => exact .inr ⟨_, .partsDone hdone, rfl⟩
      | partPanic i hpanic => exact .inr ⟨_, .partPanic i hpanic, rfl⟩
  | attempt body next =>
      cases hstep with
      | attempt hbody => exact .inr ⟨_, .attempt hbody, rfl⟩
      | attemptDone => exact .inr ⟨_, .attemptDone, rfl⟩
      | attemptPanic => exact .inr ⟨_, .attemptPanic, rfl⟩
  | own started body next =>
      cases hstep with
      | ownStarted => exact .inr ⟨_, .ownStarted, rfl⟩
      | own hbody => exact .inr ⟨_, .own hbody, rfl⟩
      | ownDone => exact .inr ⟨_, .ownDone, rfl⟩
      | ownPanic => exact .inr ⟨_, .ownPanic, rfl⟩

/-- A process with a sequel stands in the process, or the process has a result and it stands in the
sequel. -/
theorem goes_of_bind {p : Proc E α} {f : α → Proc E β} {q : Proc E β}
    (hgoes : Goes A I r (p.bind f, s) (q, t)) :
    (∃ p', Goes A I r (p, s) (p', t) ∧ q = p'.bind f) ∨
      ∃ a u, Goes A I r (p, s) (.done a, u) ∧ Goes A I r (f a, u) (q, t) := by
  generalize hb : (q, t) = b at hgoes
  induction hgoes generalizing q t with
  | refl =>
      cases hb
      exact .inl ⟨p, .refl, rfl⟩
  | @tail a _ _ hbeat ih =>
      subst hb
      cases hbeat with
      | step hstep =>
          rcases ih rfl with ⟨p', hp', rfl⟩ | ⟨a, u, ha, hf⟩
          · rcases hstep.of_bind with ⟨a, rfl, hnext⟩ | ⟨p'', hnext, rfl⟩
            · exact .inr ⟨a, _, hp', .single (.step hnext)⟩
            · exact .inl ⟨p'', hp'.tail (.step hnext), rfl⟩
          · exact .inr ⟨a, u, ha, hf.tail (.step hstep)⟩
      | meanwhile ht =>
          rcases ih rfl with ⟨p', hp', rfl⟩ | ⟨a, u, ha, hf⟩
          · exact .inl ⟨p', hp'.tail (.meanwhile ht), rfl⟩
          · exact .inr ⟨a, u, ha, hf.tail (.meanwhile ht)⟩

/-- A process that is over stays so. -/
theorem eq_done_of_goes {a : α} {q : Proc E α} (hgoes : Goes A I r (done a, s) (q, t)) :
    q = done a := by
  generalize hb : (q, t) = b at hgoes
  induction hgoes generalizing q t with
  | refl => exact (Prod.mk.inj hb).1
  | @tail a _ _ hbeat ih =>
      subst hb
      cases hbeat with
      | step hstep =>
          obtain rfl := ih rfl
          cases hstep
      | meanwhile _ => exact ih rfl

/-- A process with a sequel that has a result had one before its sequel. -/
theorem goes_of_bind_done {p : Proc E α} {f : α → Proc E β} {b : β}
    (hgoes : Goes A I r (p.bind f, s) (.done b, t)) :
    ∃ a u, Goes A I r (p, s) (.done a, u) ∧ Goes A I r (f a, u) (.done b, t) := by
  rcases goes_of_bind hgoes with ⟨p', hp', hdone⟩ | h
  · cases p' with
    | done a => exact ⟨a, t, hp', hdone ▸ .refl⟩
    | _ => cases hdone
  · exact h

end Proc

end Workflow
