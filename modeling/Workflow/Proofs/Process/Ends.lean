import Mathlib.Data.List.Forall2
import Workflow.Proofs.Process.Settles

/-!
# In turn and side by side

What a process may end with is composed of what its parts may end with by themselves, since others
may do between its steps whatever keeps the state within bounds.  So it makes no difference whether
several processes run one after another or side by side: with whatever results they may end in the
one way, they may end in the other, too (`ends_sideBySide`, `ends_inTurn`).
-/

namespace Workflow

open Relation

universe u

variable {E : Type → Type 1} {S : Type u} {α β : Type}
  {A : Role → (β : Type) → E β → S → β → S → Prop} {I : S → Prop} {r r' : Role} {s t : S}

/-- Whoever makes a call, it may be answered the same. -/
def Impartial (A : Role → (β : Type) → E β → S → β → S → Prop) : Prop :=
  ∀ r r' (β : Type) (c : E β) s b s', A r β c s b s' → ∃ s'', A r' β c s b s''

namespace Proc

/-! ### Steps with a sequel and in another role -/

theorem Step.bind {p q : Proc E α} {f : α → Proc E β} {left : List (Proc E Unit)}
    (hstep : Step A r p s left q t) : Step A r (p.bind f) s left (q.bind f) t := by
  cases hstep with
  | ask hanswer => exact .ask hanswer
  | begun d' => exact .begun d'
  | elapsed => exact .elapsed
  | stopped hanswer => exact .stopped hanswer
  | notStopped hanswer => exact .notStopped hanswer
  | limited hbody => exact .limited hbody
  | limitBegun d' => exact .limitBegun d'
  | limitDone => exact .limitDone
  | limitPanic => exact .limitPanic
  | limitElapsed => exact .limitElapsed
  | limitStopped hanswer => exact .limitStopped hanswer
  | limitNotStopped hanswer => exact .limitNotStopped hanswer
  | part i hpart => exact .part i hpart
  | partsDone hdone => exact .partsDone hdone
  | partPanic i hpanic => exact .partPanic i hpanic
  | attempt hbody => exact .attempt hbody
  | attemptDone => exact .attemptDone
  | attemptPanic => exact .attemptPanic
  | ownStarted => exact .ownStarted
  | own hbody => exact .own hbody
  | ownDone => exact .ownDone
  | ownPanic => exact .ownPanic

/-- A step that is taken in one role may be taken in another, but for what the calls leave behind in
the state. -/
theorem Step.inRole (hA : Impartial A) {p q : Proc E α} {left : List (Proc E Unit)}
    (hstep : Step A r p s left q t) (r' : Role) : ∃ t', Step A r' p s left q t' := by
  induction hstep generalizing r' with
  | ask hanswer => exact (hA _ r' _ _ _ _ _ hanswer).imp fun _ h => .ask h
  | begun d' => exact ⟨_, .begun d'⟩
  | elapsed => exact ⟨_, .elapsed⟩
  | stopped hanswer => exact (hA _ r'.part _ _ _ _ _ hanswer).imp fun _ h => .stopped h
  | notStopped hanswer => exact (hA _ r'.part _ _ _ _ _ hanswer).imp fun _ h => .notStopped h
  | limited hbody _ => exact ⟨_, .limited hbody⟩
  | limitBegun d' => exact ⟨_, .limitBegun d'⟩
  | limitDone => exact ⟨_, .limitDone⟩
  | limitPanic => exact ⟨_, .limitPanic⟩
  | limitElapsed => exact ⟨_, .limitElapsed⟩
  | limitStopped hanswer => exact (hA _ r'.part _ _ _ _ _ hanswer).imp fun _ h => .limitStopped h
  | limitNotStopped hanswer =>
      exact (hA _ r'.part _ _ _ _ _ hanswer).imp fun _ h => .limitNotStopped h
  | part i _ ih => exact (ih r'.part).imp fun _ h => .part i h
  | partsDone hdone => exact ⟨_, .partsDone hdone⟩
  | partPanic i hpanic => exact ⟨_, .partPanic i hpanic⟩
  | attempt _ ih => exact (ih r').imp fun _ h => .attempt h
  | attemptDone => exact ⟨_, .attemptDone⟩
  | attemptPanic => exact ⟨_, .attemptPanic⟩
  | ownStarted => exact ⟨_, .ownStarted⟩
  | own _ ih => exact (ih r').imp fun _ h => .own h
  | ownDone => exact ⟨_, .ownDone⟩
  | ownPanic => exact ⟨_, .ownPanic⟩

theorem Goes.bind {p q : Proc E α} (f : α → Proc E β) (h : Goes A I r (p, s) (q, t)) :
    Goes A I r (p.bind f, s) (q.bind f, t) := by
  refine ReflTransGen.lift (fun a : Proc E α × S => (a.1.bind f, a.2)) (fun _ _ hbeat => ?_) _ _ h
  cases hbeat with
  | step hstep => exact .step hstep.bind
  | meanwhile ht => exact .meanwhile ht

/-- Others may see to it that the state is what it would be in another role. -/
theorem Settles.inRole {p q : Proc E α} {Q : α → Prop} (hA : Impartial A)
    (h : p.Settles A I Q) (hs : I s) (hgoes : Goes A I r (p.patient, s) (q, t)) (r' : Role) :
    Goes A I r' (p.patient, s) (q, t) := by
  generalize hb : (q, t) = b at hgoes
  induction hgoes generalizing q t with
  | refl =>
      cases hb
      exact .refl
  | @tail a _ hgoes hbeat ih =>
      subst hb
      cases hbeat with
      | step hstep =>
          have ht := (h.goes hs (hgoes.tail (.step hstep))).1
          obtain ⟨t', hstep'⟩ := hstep.inRole hA r'
          exact ((ih rfl).tail (.step hstep')).tail (.meanwhile ht)
      | meanwhile ht => exact (ih rfl).tail (.meanwhile ht)

/-! ### What a process may end with -/

/-- A process that is given all the time it needs may end with a result, whoever runs it and
wherever it begins within the bounds. -/
def Ends (A : Role → (β : Type) → E β → S → β → S → Prop) (I : S → Prop) (p : Proc E α) (a : α) :
    Prop :=
  ∃ r s t, I s ∧ Goes A I r (p.patient, s) (.done a, t)

/-- A run in which no part is given up for its time ends with a result that the process may end
with. -/
theorem ends_of_timely {p : Proc E α} {a : α} (hs : I s)
    (h : ReflTransGen (fun b c : Proc E α × S => Beat A I r b c ∧ ¬Overdue b.1 c.1) (p, s)
      (.done a, t)) : p.Ends A I a :=
  ⟨r, s, t, hs, goes_patient h⟩

theorem Settles.ends {p : Proc E α} {Q : α → Prop} (h : p.Settles A I Q) {a : α}
    (ha : p.Ends A I a) : Q a := by
  obtain ⟨r, s, t, hs, hgoes⟩ := ha
  exact h.result hs hgoes

/-- Where a process begins makes no difference to what it may end with, nor who runs it. -/
theorem Ends.from {p : Proc E α} {Q : α → Prop} {a : α} (ha : p.Ends A I a) (hA : Impartial A)
    (h : p.Settles A I Q) (r : Role) (s : S) : ∃ t, Goes A I r (p.patient, s) (.done a, t) := by
  obtain ⟨r₁, s₁, t, hs₁, hgoes⟩ := ha
  exact ⟨t, (h.inRole hA hs₁ hgoes r).head (.meanwhile hs₁)⟩

theorem ends_bind (hA : Impartial A) {p : Proc E α} {f : α → Proc E β} {Q : α → Prop}
    (h : p.Settles A I Q) {b : β} :
    (p.bind f).Ends A I b ↔ ∃ a, p.Ends A I a ∧ (f a).Ends A I b := by
  constructor
  · rintro ⟨r, s, t, hs, hgoes⟩
    rw [patient_bind] at hgoes
    obtain ⟨a, u, hfirst, hrest⟩ := goes_of_bind_done hgoes
    exact ⟨a, ⟨r, s, u, hs, hfirst⟩, r, u, t, (h.goes hs hfirst).1, hrest⟩
  · rintro ⟨a, ha, r, s, t, hs, hrest⟩
    obtain ⟨u, hfirst⟩ := ha.from hA h r s
    refine ⟨r, s, t, hs, ?_⟩
    rw [patient_bind]
    exact ((hfirst.bind _).tail (.meanwhile hs)).trans hrest

theorem ends_done (hI : ∃ s, I s) {a b : α} : (done a : Proc E α).Ends A I b ↔ a = b := by
  constructor
  · rintro ⟨r, s, t, -, hgoes⟩
    exact (done.inj (eq_done_of_goes hgoes)).symm
  · rintro rfl
    obtain ⟨s, hs⟩ := hI
    exact ⟨.owner, s, s, hs, .refl⟩

/-! ### In turn -/

/-- Processes one after another, with the list of their results. -/
def inTurn : List (Proc E α) → Proc E (List α)
  | [] => done []
  | p :: rest => p.bind fun a => (inTurn rest).bind fun more => done (a :: more)

theorem settles_inTurn {ι : Type} {f : ι → Proc E α} {R : ι → α → Prop} {is : List ι}
    (h : ∀ i ∈ is, (f i).Settles A I (R i)) :
    (inTurn (is.map f)).Settles A I (List.Forall₂ R is) := by
  induction is with
  | nil => exact .nil
  | cons i rest ih =>
      refine (h i List.mem_cons_self).andThen fun a ha => ?_
      refine (ih fun j hj => h j (List.mem_cons_of_mem i hj)).andThen fun more hmore => ?_
      exact .cons ha hmore

theorem ends_inTurn (hA : Impartial A) (hI : ∃ s, I s) {ι : Type} {f : ι → Proc E α}
    {R : ι → α → Prop} {is : List ι} (h : ∀ i ∈ is, (f i).Settles A I (R i)) {results : List α} :
    (inTurn (is.map f)).Ends A I results ↔
      List.Forall₂ (fun i a => (f i).Ends A I a) is results := by
  induction is generalizing results with
  | nil =>
      rw [List.map_nil, inTurn, ends_done hI, List.forall₂_nil_left_iff]
      exact eq_comm
  | cons i rest ih =>
      have hrest : ∀ j ∈ rest, (f j).Settles A I (R j) :=
        fun j hj => h j (List.mem_cons_of_mem i hj)
      rw [List.map_cons, inTurn, ends_bind hA (h i List.mem_cons_self)]
      simp only [ends_bind hA (settles_inTurn hrest), ends_done hI, ih hrest]
      constructor
      · rintro ⟨a, ha, more, hmore, rfl⟩
        exact .cons ha hmore
      · rintro (_ | ⟨ha, hmore⟩)
        exact ⟨_, ha, _, hmore, rfl⟩

/-! ### Side by side -/

theorem settles_sideBySide {ι : Type} {f : ι → Proc E α} {R : ι → α → Prop} {is : List ι}
    (h : ∀ i ∈ is, (f i).Settles A I (R i)) :
    (sideBySide (is.map f)).Settles A I (List.Forall₂ R is) := by
  refine ⟨fun i => R (is.get (i.cast (List.length_map f))), fun i => ?_, fun results hresults => ?_⟩
  · simpa using h _ (List.get_mem is (i.cast (List.length_map f)))
  · rw [settles_done, List.forall₂_iff_get]
    refine ⟨by simp, fun i hi hi' => ?_⟩
    simpa using hresults ⟨i, by simpa using hi⟩

/-- Whatever order several parts take their steps in, each of them stands where it may come to by
itself among others, until all of them have ended. -/
theorem goes_of_all {n : Nat} {parts : Fin n → Proc E β} {next : (Fin n → β) → Proc E α}
    {P : Fin n → β → Prop} {q : Proc E α} (hparts : ∀ i, (parts i).Settles A I (P i)) (hs : I s)
    (hgoes : Goes A I r ((all n parts next).patient, s) (q, t)) :
    (∃ parts' : Fin n → Proc E β, (∀ i, Goes A I r.part ((parts i).patient, s) (parts' i, t)) ∧
        q = .all n parts' fun results => (next results).patient) ∨
      ∃ results u, (∀ i, Goes A I r.part ((parts i).patient, s) (.done (results i), u)) ∧
        Goes A I r ((next results).patient, u) (q, t) := by
  generalize hb : (q, t) = b at hgoes
  induction hgoes generalizing q t with
  | refl =>
      cases hb
      exact .inl ⟨_, fun _ => .refl, rfl⟩
  | @tail a _ _ hbeat ih =>
      subst hb
      cases hbeat with
      | meanwhile ht =>
          rcases ih rfl with ⟨parts', hstand, rfl⟩ | ⟨results, u, hdone, hnext⟩
          · exact .inl ⟨parts', fun i => (hstand i).tail (.meanwhile ht), rfl⟩
          · exact .inr ⟨results, u, hdone, hnext.tail (.meanwhile ht)⟩
      | step hstep =>
          rcases ih rfl with ⟨parts', hstand, rfl⟩ | ⟨results, u, hdone, hnext⟩
          · cases hstep with
            | @part _ _ _ _ _ _ _ _ _ p i hpart =>
                -- The others see no more of the step than that the state stays within its bounds.
                have hi := (hstand i).tail (.step hpart)
                have ht := ((hparts i).goes hs hi).1
                refine .inl ⟨_, fun j => ?_, rfl⟩
                by_cases hj : j = i
                · subst hj
                  rwa [Function.update_self]
                · rw [Function.update_of_ne hj]
                  exact (hstand j).tail (.meanwhile ht)
            | partsDone hdone => exact .inr ⟨_, _, fun i => hdone i ▸ hstand i, .refl⟩
            | partPanic i hpanic =>
                obtain ⟨-, p', hp', hsettles⟩ := (hparts i).goes hs (hstand i)
                rw [eq_panic_of_patient (hp'.symm.trans hpanic)] at hsettles
                exact hsettles.elim
          · exact .inr ⟨results, u, hdone, hnext.tail (.step hstep)⟩

/-- A part takes its steps while the other parts take none. -/
theorem Goes.part {n : Nat} {parts : Fin n → Proc E β} {next : (Fin n → β) → Proc E α} (i : Fin n)
    {q : Proc E β} (h : Goes A I r.part (parts i, s) (q, t)) :
    Goes A I r (.all n parts next, s) (.all n (Function.update parts i q) next, t) := by
  generalize hb : (q, t) = b at h
  induction h generalizing q t with
  | refl =>
      cases hb
      rw [Function.update_eq_self]
      exact .refl
  | @tail a _ _ hbeat ih =>
      subst hb
      cases hbeat with
      | meanwhile ht => exact (ih rfl).tail (.meanwhile ht)
      | @step p _ u _ left hstep =>
          have hpart : Step A r (.all n (Function.update parts i p) next) u left
              (.all n (Function.update (Function.update parts i p) i q) next) t :=
            .part i (by rwa [Function.update_self])
          rw [Function.update_idem] at hpart
          exact (ih rfl).tail (.step hpart)

/-- Parts that may end with certain results may do so side by side, the first before the second and
so on. -/
theorem goes_all {n : Nat} {parts : Fin n → Proc E β} {next : (Fin n → β) → Proc E α}
    {results : Fin n → β}
    (h : ∀ i, ∃ u t, I u ∧ Goes A I r.part (parts i, u) (.done (results i), t)) (s : S) :
    ∃ t, Goes A I r (.all n parts next, s) (next results, t) := by
  let ended (m : Nat) (i : Fin n) : Proc E β := if i < m then .done (results i) else parts i
  have hended : ∀ m ≤ n, ∃ t, Goes A I r (.all n parts next, s) (.all n (ended m) next, t) := by
    intro m hm
    induction m with
    | zero => exact ⟨s, .refl⟩
    | succ m ih =>
        obtain ⟨t, hgoes⟩ := ih (by omega)
        let i : Fin n := ⟨m, hm⟩
        obtain ⟨u, t', hu, hpart⟩ := h i
        have hi : ended m i = parts i := if_neg (lt_irrefl m)
        have hupdate : Function.update (ended m) i (.done (results i)) = ended (m + 1) := by
          funext j
          by_cases hj : j = i
          · subst hj
            simp [ended, i]
          · have hne : (j : Nat) ≠ m := fun h => hj (Fin.ext h)
            rw [Function.update_of_ne hj]
            simp only [ended, show (j : Nat) < m ↔ (j : Nat) < m + 1 by omega]
        rw [← hi] at hpart
        exact ⟨t', hupdate ▸ (hgoes.tail (.meanwhile hu)).trans (hpart.part i)⟩
  obtain ⟨t, hgoes⟩ := hended n le_rfl
  exact ⟨t, hgoes.tail (.step (.partsDone fun i => if_pos i.isLt))⟩

theorem ends_sideBySide (hA : Impartial A) (hI : ∃ s, I s) {ι : Type} {f : ι → Proc E α}
    {R : ι → α → Prop} {is : List ι} (h : ∀ i ∈ is, (f i).Settles A I (R i)) {results : List α} :
    (sideBySide (is.map f)).Ends A I results ↔
      List.Forall₂ (fun i a => (f i).Ends A I a) is results := by
  have hlength : (is.map f).length = is.length := List.length_map f
  constructor
  · rintro ⟨r, s, t, hs, hgoes⟩
    have hparts : ∀ i, ((is.map f).get i).Settles A I (R (is.get (i.cast hlength))) :=
      fun i => by simpa using h _ (List.get_mem is (i.cast hlength))
    rcases goes_of_all hparts hs hgoes with ⟨_, _, hdone⟩ | ⟨found, u, hended, hlast⟩
    · cases hdone
    · obtain rfl : results = List.ofFn found := done.inj (eq_done_of_goes hlast)
      refine List.forall₂_iff_get.mpr ⟨by simp, fun i hi hi' => ⟨r.part, s, u, hs, ?_⟩⟩
      simpa using hended ⟨i, by simpa using hi⟩
  · intro hresults
    obtain ⟨s, hs⟩ := hI
    obtain ⟨hsame, hget⟩ := List.forall₂_iff_get.mp hresults
    let found (i : Fin (is.map f).length) : α := results.get (i.cast (hlength.trans hsame))
    have hfound : List.ofFn found = results := by
      apply List.ext_get
      · simp [hsame]
      · intro i hi hi'
        simp [found]
    have hparts : ∀ i, ∃ u t, I u ∧
        Goes A I Role.owner.part (((is.map f).get i).patient, u) (.done (found i), t) := by
      intro i
      have hi : i.val < is.length := hlength ▸ i.isLt
      obtain ⟨r, u, t, hu, hgoes⟩ := hget i.val hi (hsame ▸ hi)
      refine ⟨u, t, hu, ?_⟩
      have hrole := (h _ (List.get_mem is ⟨i, hi⟩)).inRole hA hu hgoes Role.owner.part
      simpa [found] using hrole
    obtain ⟨t, hgoes⟩ := goes_all hparts s
    exact ⟨.owner, s, t, hs, hfound ▸ hgoes⟩

end Proc

end Workflow
