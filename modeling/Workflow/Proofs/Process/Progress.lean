import Mathlib.Data.Fintype.Basic
import Mathlib.Logic.Hydra
import Workflow.Proofs.Process.Schedule

/-!
# Processes come to an end

A process is a tree, and a step takes it nearer to its leaves unless it only waits: it fixes when a
wait is over, or asks in vain whether to stop.  So no sequence of steps goes on for ever without
waiting for ever (`Proc.waits_at_last`), and a process whose calls are answered can be brought to
its end at any time (`Proc.can_end`).
-/

namespace Workflow

universe u

variable {E : Type → Type 1} {S : Type u} {A : Role → (β : Type) → E β → S → β → S → Prop}
  {r : Role} {s s' : S} {α β : Type}

namespace Proc

/-- A limit of which only that there is one matters. -/
def someLimit (deadline : Option Deadline) : Option Deadline := deadline.map fun _ => .tick 0

@[simp] theorem someLimit_someLimit (deadline : Option Deadline) :
    someLimit (someLimit deadline) = someLimit deadline := by
  cases deadline <;> rfl

/-- A process without the times at which its waits are over. -/
def timeless : {α : Type} → Proc E α → Proc E α
  | _, .done a => .done a
  | _, .panic message => .panic message
  | _, .ask c next => .ask c next
  | _, .wait _ stop next => .wait (.tick 0) stop next
  | _, .limited deadline stop body next =>
    .limited (someLimit deadline) stop body.timeless next
  | _, .all n parts next => .all n (fun i => (parts i).timeless) next
  | _, .attempt body next => .attempt body.timeless next
  | _, .own started body next => .own started body.timeless next

@[simp] theorem timeless_timeless (p : Proc E α) : p.timeless.timeless = p.timeless := by
  induction p with
  | limited deadline stop body next ihBody _ => simp [timeless, ihBody]
  | all n parts next ihParts _ => simp [timeless, ihParts]
  | attempt body next ihBody _ => simp [timeless, ihBody]
  | own started body next ihBody _ => simp [timeless, ihBody]
  | _ => rfl

theorem timeless_update {n : Nat} (parts : Fin n → Proc E β) (i : Fin n) (q : Proc E β) :
    (fun j => (Function.update parts i q j).timeless) =
      Function.update (fun j => (parts j).timeless) i q.timeless := by
  funext j
  by_cases hj : j = i
  · subst hj
    simp
  · simp [hj]

/-- Times do not matter for what a step may be. -/
theorem Step.timeless {p q : Proc E α} {left : List (Proc E Unit)}
    (hstep : Step A r p s left q s') :
    ∃ left' q', Step A r p.timeless s left' q' s' ∧ q'.timeless = q.timeless := by
  induction hstep with
  | ask hanswer => exact ⟨_, _, .ask hanswer, rfl⟩
  | begun d' => exact ⟨_, _, .begun d', rfl⟩
  | elapsed => exact ⟨_, _, .elapsed, rfl⟩
  | stopped hanswer => exact ⟨_, _, .stopped hanswer, rfl⟩
  | notStopped hanswer => exact ⟨_, _, .notStopped hanswer, rfl⟩
  | limited _ ih =>
      obtain ⟨_, _, hbody, heq⟩ := ih
      exact ⟨_, _, .limited hbody, by simp [Proc.timeless, heq]⟩
  | limitBegun d' => exact ⟨_, _, .limitBegun d', by simp [Proc.timeless]⟩
  | limitDone => exact ⟨_, _, .limitDone, rfl⟩
  | limitPanic => exact ⟨_, _, .limitPanic, rfl⟩
  | limitElapsed => exact ⟨_, _, .limitElapsed, rfl⟩
  | limitStopped hanswer => exact ⟨_, _, .limitStopped hanswer, rfl⟩
  | limitNotStopped hanswer => exact ⟨_, _, .limitNotStopped hanswer, by simp [Proc.timeless]⟩
  | part i _ ih =>
      obtain ⟨_, _, hpart, heq⟩ := ih
      refine ⟨_, _, .part i hpart, ?_⟩
      simp only [Proc.timeless, timeless_update, heq, timeless_timeless]
  | partsDone hdone =>
      refine ⟨_, _, .partsDone fun i => ?_, rfl⟩
      rw [hdone i]
      rfl
  | partPanic i hpanic =>
      refine ⟨_, _, .partPanic i ?_, rfl⟩
      rw [hpanic]
      rfl
  | attempt _ ih =>
      obtain ⟨_, _, hbody, heq⟩ := ih
      exact ⟨_, _, .attempt hbody, by simp [Proc.timeless, heq]⟩
  | attemptDone => exact ⟨_, _, .attemptDone, rfl⟩
  | attemptPanic => exact ⟨_, _, .attemptPanic, rfl⟩
  | ownStarted => exact ⟨_, _, .ownStarted, by simp [Proc.timeless]⟩
  | own _ ih =>
      obtain ⟨_, _, hbody, heq⟩ := ih
      exact ⟨_, _, .own hbody, by simp [Proc.timeless, heq]⟩
  | ownDone => exact ⟨_, _, .ownDone, rfl⟩
  | ownPanic => exact ⟨_, _, .ownPanic, rfl⟩

/-! ### Getting nearer to the end -/

/-- The one process is what the other is after a step that does not only wait, but for the times. -/
def Nearer (A : Role → (β : Type) → E β → S → β → S → Prop) (q p : Proc E α) : Prop :=
  q ≠ p ∧ ∃ r s left q' s', Step A r p s left q' s' ∧ q'.timeless = q

instance : Std.Irrefl (Nearer A : Proc E α → Proc E α → Prop) := ⟨fun _ h => h.1 rfl⟩

theorem Step.nearer {p q : Proc E α} {left : List (Proc E Unit)} (hstep : Step A r p s left q s') :
    q.timeless = p.timeless ∨ Nearer A q.timeless p.timeless := by
  by_cases heq : q.timeless = p.timeless
  · exact .inl heq
  · obtain ⟨left', q', hstep', hq'⟩ := hstep.timeless
    exact .inr ⟨heq, r, s, left', q', s', hstep', hq'⟩

theorem acc_panic (message : String) : Acc (Nearer A) (panic message : Proc E α) := by
  constructor
  rintro q ⟨-, r, s, left, q', s', hstep, -⟩
  cases hstep

theorem acc_limited {deadline : Option Deadline} {stop : Option (E Bool)} {body : Proc E β}
    {next : Ending β → Proc E α} (hbody : Acc (Nearer A) body) (htimeless : body.timeless = body)
    (hnext : ∀ ending, Acc (Nearer A) (next ending).timeless) :
    Acc (Nearer A) (.limited (someLimit deadline) stop body next) := by
  induction hbody generalizing deadline with
  | intro body _ ih =>
      constructor
      generalize hlimit : someLimit deadline = limit
      have hself : someLimit limit = limit := by rw [← hlimit, someLimit_someLimit]
      rintro q ⟨hne, r, s, left, q', s', hstep, rfl⟩
      cases hstep with
      | @limited _ _ _ _ _ _ body' _ _ _ _ hbody' =>
          have hbodyNe : body'.timeless ≠ body := by
            intro heq
            exact hne (by simp only [timeless, heq, hself])
          exact ih _ ⟨hbodyNe, _, _, _, _, _, hbody', rfl⟩ (timeless_timeless body')
      | limitBegun d' =>
          apply absurd _ hne
          rw [timeless, htimeless]
          exact congrArg (limited · stop body next) hself
      | limitDone => exact hnext _
      | limitPanic => exact acc_panic _
      | limitElapsed => exact hnext _
      | limitStopped _ => exact hnext _
      | limitNotStopped _ => exact absurd (by rw [timeless, hself, htimeless]) hne

/-- One of several processes is replaced by one that is nearer to its end. -/
theorem cutExpand_update {n : Nat} {parts : Fin n → Proc E β} {i : Fin n} {q : Proc E β}
    (h : Nearer A q (parts i)) :
    Relation.CutExpand (Nearer A) (Finset.univ.val.map (Function.update parts i q))
      (Finset.univ.val.map parts) := by
  let rest : Multiset (Fin n) := (Finset.univ.erase i).val
  have huniv : (Finset.univ : Finset (Fin n)).val = i ::ₘ rest := by
    rw [← Finset.insert_val_of_notMem (Finset.notMem_erase i _),
      Finset.insert_erase (Finset.mem_univ i)]
  have hrest : rest.map (Function.update parts i q) = rest.map parts := by
    apply Multiset.map_congr rfl
    intro j hj
    exact Function.update_of_ne (Finset.ne_of_mem_erase (Finset.mem_val.mp hj)) _ _
  rw [huniv, Multiset.map_cons, Multiset.map_cons, hrest, Function.update_self,
    ← Multiset.singleton_add, ← Multiset.singleton_add]
  exact Relation.cutExpand_single_add h _

theorem acc_all {n : Nat} {parts : Fin n → Proc E β} {next : (Fin n → β) → Proc E α}
    (hparts : ∀ i, Acc (Nearer A) (parts i)) (htimeless : ∀ i, (parts i).timeless = parts i)
    (hnext : ∀ results, Acc (Nearer A) (next results).timeless) :
    Acc (Nearer A) (.all n parts next) := by
  have hacc : Acc (Relation.CutExpand (Nearer A)) (Finset.univ.val.map parts) := by
    apply Relation.acc_of_singleton
    intro p hp
    obtain ⟨i, -, rfl⟩ := Multiset.mem_map.mp hp
    exact (hparts i).cutExpand
  clear hparts
  generalize hall : Finset.univ.val.map parts = all at hacc
  induction hacc generalizing parts with
  | intro all _ ih =>
      subst hall
      constructor
      rintro q ⟨hne, r, s, left, q', s', hstep, rfl⟩
      have hself : (fun j => (parts j).timeless) = parts := funext htimeless
      cases hstep with
      | @part _ _ _ _ _ _ _ _ _ p i hpart =>
          have hpartNe : p.timeless ≠ parts i := by
            intro heq
            apply hne
            rw [timeless, timeless_update, heq, hself, Function.update_eq_self]
          rw [timeless, timeless_update, hself]
          refine ih _ (cutExpand_update ⟨hpartNe, _, _, _, _, _, hpart, rfl⟩) (fun j => ?_) rfl
          by_cases hj : j = i
          · subst hj
            simp
          · simp [hj, htimeless]
      | partsDone _ => exact hnext _
      | partPanic _ _ => exact acc_panic _

theorem acc_attempt {body : Proc E β} {next : Except String β → Proc E α}
    (hbody : Acc (Nearer A) body) (hnext : ∀ ended, Acc (Nearer A) (next ended).timeless) :
    Acc (Nearer A) (.attempt body next) := by
  induction hbody with
  | intro body _ ih =>
      constructor
      rintro q ⟨hne, r, s, left, q', s', hstep, rfl⟩
      cases hstep with
      | @attempt _ _ _ _ body' _ _ _ _ hbody' =>
          have hbodyNe : body'.timeless ≠ body := by
            intro heq
            exact hne (by rw [timeless, heq])
          exact ih _ ⟨hbodyNe, _, _, _, _, _, hbody', rfl⟩
      | attemptDone => exact hnext _
      | attemptPanic => exact hnext _

theorem acc_own {body : Proc E β} {next : Except String β → Proc E α}
    (hbody : Acc (Nearer A) body) (hnext : ∀ ended, Acc (Nearer A) (next ended).timeless) :
    Acc (Nearer A) (.own true body next) := by
  induction hbody with
  | intro body _ ih =>
      constructor
      rintro q ⟨hne, r, s, left, q', s', hstep, rfl⟩
      cases hstep with
      | @own _ _ _ _ body' _ _ _ _ hbody' =>
          have hbodyNe : body'.timeless ≠ body := by
            intro heq
            exact hne (by rw [timeless, heq])
          exact ih _ ⟨hbodyNe, _, _, _, _, _, hbody', rfl⟩
      | ownDone => exact hnext _
      | ownPanic => exact hnext _

/-- There is no end of getting nearer but the end. -/
theorem acc_timeless (A : Role → (β : Type) → E β → S → β → S → Prop) (p : Proc E α) :
    Acc (Nearer A) p.timeless := by
  induction p with
  | done a =>
      constructor
      rintro q ⟨-, r, s, left, q', s', hstep, -⟩
      cases hstep
  | panic message => exact acc_panic message
  | ask c next ih =>
      constructor
      rintro q ⟨-, r, s, left, q', s', hstep, rfl⟩
      cases hstep with
      | ask _ => exact ih _
  | wait deadline stop next ih =>
      constructor
      rintro q ⟨hne, r, s, left, q', s', hstep, rfl⟩
      cases hstep with
      | begun d' => exact absurd rfl hne
      | elapsed => exact ih true
      | stopped _ => exact ih false
      | notStopped _ => exact absurd rfl hne
  | limited deadline stop body next ihBody ih =>
      exact acc_limited ihBody (timeless_timeless body) ih
  | all n parts next ihParts ih => exact acc_all ihParts (fun i => timeless_timeless (parts i)) ih
  | attempt body next ihBody ih => exact acc_attempt ihBody ih
  | own started body next ihBody ih =>
      have hstarted := acc_own ihBody ih
      cases started with
      | true => exact hstarted
      | false =>
          constructor
          rintro q ⟨-, r, s, left, q', s', hstep, rfl⟩
          cases hstep with
          | ownStarted =>
              rw [timeless, timeless_timeless]
              exact hstarted

/-- Of infinitely many steps of a process, whatever happens between them, all but finitely many only
wait. -/
theorem waits_at_last (run : Nat → Proc E α)
    (hrun : ∀ i, ∃ r s left s', Step A r (run i) s left (run (i + 1)) s') :
    ∃ last, ∀ i, last ≤ i → (run (i + 1)).timeless = (run i).timeless := by
  classical
  have hacc := acc_timeless A (run 0)
  generalize hp : (run 0).timeless = p at hacc
  induction hacc generalizing run with
  | intro p _ ih =>
      by_cases hwaits : ∀ i, (run i).timeless = p
      · exact ⟨0, fun i _ => by rw [hwaits, hwaits]⟩
      · -- The first step that does not only wait takes the process nearer to its end.
        have hmoves : ∃ i, (run i).timeless ≠ p := not_forall.mp hwaits
        obtain ⟨i, hi⟩ : ∃ i, Nat.find hmoves = i + 1 := by
          apply Nat.exists_eq_succ_of_ne_zero
          intro hzero
          exact Nat.find_spec hmoves (hzero ▸ hp)
        have hbefore : (run i).timeless = p := not_not.mp (Nat.find_min hmoves (by omega))
        have hafter : (run (i + 1)).timeless ≠ p := hi ▸ Nat.find_spec hmoves
        obtain ⟨r, s, left, s', hstep⟩ := hrun i
        have hnearer : Nearer A (run (i + 1)).timeless p := by
          rw [← hbefore]
          exact hstep.nearer.resolve_left (by rwa [hbefore])
        obtain ⟨last, hlast⟩ :=
          ih _ hnearer (fun j => run (i + 1 + j)) (fun j => hrun (i + 1 + j)) rfl
        refine ⟨i + 1 + last, fun j hj => ?_⟩
        obtain ⟨k, rfl⟩ := Nat.exists_eq_add_of_le hj
        have hk := hlast (last + k) (Nat.le_add_right last k)
        simpa only [Nat.add_assoc] using hk

/-! ### Reaching the end -/

theorem parts_can_end {n : Nat} {parts : Fin n → Proc E β}
    (hparts : ∀ i s, ∃ left q s', Steps A r.part (parts i) s left q s' ∧ q.IsOver) :
    ∃ left parts' s', PartSteps A r parts s left parts' s' ∧ ∀ i, (parts' i).IsOver := by
  induction n generalizing s with
  | zero => exact ⟨[], parts, s, .refl parts s, fun i => i.elim0⟩
  | succ n ih =>
      obtain ⟨left, q, t, hfirst, hq⟩ := hparts 0 s
      obtain ⟨more, rest, s', hrest, hover⟩ := ih (s := t) fun i => hparts i.succ
      have hupdate : Function.update parts 0 q = Fin.cons q fun i => parts i.succ := by
        funext i
        cases i using Fin.cases with
        | zero => rfl
        | succ i => rfl
      refine ⟨left ++ more, Fin.cons q rest, s', .head 0 hfirst ?_, fun i => ?_⟩
      · rw [hupdate]
        exact hrest.cons q
      · cases i using Fin.cases with
        | zero => exact hq
        | succ i => exact hover i

/-- A process whose calls are answered can be brought to its end. -/
theorem can_end (hA : ∀ r (β : Type) (c : E β) s, ∃ b s', A r β c s b s') (p : Proc E α) (r : Role)
    (s : S) : ∃ left q s', Steps A r p s left q s' ∧ q.IsOver := by
  induction p generalizing r s with
  | done a => exact ⟨[], _, s, .refl _ s, trivial⟩
  | panic message => exact ⟨[], _, s, .refl _ s, trivial⟩
  | ask c next ih =>
      obtain ⟨reply, t, hanswer⟩ := hA r _ c s
      obtain ⟨left, q, s', hsteps, hover⟩ := ih reply r t
      exact ⟨_, q, s', .head (.ask hanswer) hsteps, hover⟩
  | wait deadline stop next ih =>
      obtain ⟨left, q, s', hsteps, hover⟩ := ih true r s
      exact ⟨_, q, s', .head .elapsed hsteps, hover⟩
  | limited deadline stop body next ihBody ih =>
      obtain ⟨left, body', t, hbody, hbodyOver⟩ := ihBody .guest s
      cases body' with
      | done b =>
          obtain ⟨more, q, s', hsteps, hover⟩ := ih (.finished b) r t
          exact ⟨_, q, s', hbody.limited.trans (.head .limitDone hsteps), hover⟩
      | panic message => exact ⟨_, _, t, hbody.limited.trans (.single .limitPanic), trivial⟩
      | _ => exact hbodyOver.elim
  | all n parts next ihParts ih =>
      obtain ⟨left, parts', t, hparts, hpartsOver⟩ :=
        parts_can_end (s := s) fun i s => ihParts i r.part s
      by_cases hpanic : ∃ i message, parts' i = .panic message
      · obtain ⟨i, message, hi⟩ := hpanic
        exact ⟨_, _, t, hparts.all.trans (.single (.partPanic i hi)), trivial⟩
      · have hdone : ∀ i, ∃ b, parts' i = .done b := by
          intro i
          have hi := hpartsOver i
          cases hp : parts' i with
          | done b => exact ⟨b, rfl⟩
          | panic message => exact absurd ⟨i, message, hp⟩ hpanic
          | _ => rw [hp] at hi; exact hi.elim
        choose results hresults using hdone
        obtain ⟨more, q, s', hsteps, hover⟩ := ih results r t
        exact ⟨_, q, s', hparts.all.trans (.head (.partsDone hresults) hsteps), hover⟩
  | attempt body next ihBody ih =>
      obtain ⟨left, body', t, hbody, hbodyOver⟩ := ihBody r s
      cases body' with
      | done b =>
          obtain ⟨more, q, s', hsteps, hover⟩ := ih (.ok b) r t
          exact ⟨_, q, s', hbody.attempt.trans (.head .attemptDone hsteps), hover⟩
      | panic message =>
          obtain ⟨more, q, s', hsteps, hover⟩ := ih (.error message) r t
          exact ⟨_, q, s', hbody.attempt.trans (.head .attemptPanic hsteps), hover⟩
      | _ => exact hbodyOver.elim
  | own started body next ihBody ih =>
      have hstarted : ∃ left q s', Steps A r (.own true body next) s left q s' ∧ q.IsOver := by
        obtain ⟨left, body', t, hbody, hbodyOver⟩ := ihBody r s
        cases body' with
        | done b =>
            obtain ⟨more, q, s', hsteps, hover⟩ := ih (.ok b) r t
            exact ⟨_, q, s', hbody.own.trans (.head .ownDone hsteps), hover⟩
        | panic message =>
            obtain ⟨more, q, s', hsteps, hover⟩ := ih (.error message) r t
            exact ⟨_, q, s', hbody.own.trans (.head .ownPanic hsteps), hover⟩
        | _ => exact hbodyOver.elim
      cases started with
      | true => exact hstarted
      | false =>
          obtain ⟨left, q, s', hsteps, hover⟩ := hstarted
          exact ⟨_, q, s', .head .ownStarted hsteps, hover⟩

end Proc

end Workflow
