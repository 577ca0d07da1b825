import Mathlib.Algebra.BigOperators.Fin
import Mathlib.Data.Multiset.Bind
import Workflow.Proofs.Process.Yields
import Workflow.Proofs.Run.Ground

/-!
# What a process has done

When a process has a result, it also has a history: the calls that it has made, with their answers,
and the parts that it has run under limits, with the ways in which these ended.  Histories are
defined along the process, so that what a function does is read off its text; they are multisets,
since what is done side by side has no order.  What goes on inside a part under a limit is not done
in the name of the process, and is left out.

The main statement is that nothing is missed (`Pool.exists_history`): whatever goes on in a pool,
its process comes to its result with a history, and what its surroundings have kept of the calls of
the process is what they keep of those in the history.
-/

namespace Workflow

universe u

/-- What a process does: it makes a call, which is answered, or runs a part under a limit, which
ends in some way. -/
inductive Event (E : Type → Type 1) : Type 1 where
  | called {β : Type} (call : E β) (reply : β)
  | ran {β : Type} (body : Proc E β) (ending : Ending β)

/-- All that a process has done, in any order. -/
abbrev History (E : Type → Type 1) := Multiset (Event E)

variable {E : Type → Type 1} {α β : Type}

/-! ### One after another -/

/-- A history of what is done first, with something that comes of it, and of what is done then. -/
def History.Then {ι : Type} (first : ι → History E → Prop) (next : ι → History E → Prop)
    (h : History E) : Prop :=
  ∃ x before after, first x before ∧ next x after ∧ h = before + after

/-- A question that is asked again and again is answered some times. -/
def History.Asks (question : Option (E Bool)) (h : History E) : Prop :=
  ∀ e ∈ h, ∃ c reply, question = some c ∧ e = .called c reply

namespace History

variable {ι κ : Type} {h : History E}

theorem then_assoc {P : ι → History E → Prop} {Q : ι → κ → History E → Prop}
    {Z : κ → History E → Prop} :
    Then P (fun x => Then (Q x) Z) h ↔ Then (fun a => Then P fun x => Q x a) Z h := by
  constructor
  · rintro ⟨x, first, _, hfirst, ⟨a, middle, last, hmiddle, hlast, rfl⟩, rfl⟩
    exact ⟨a, first + middle, last, ⟨x, first, middle, hfirst, hmiddle, rfl⟩, hlast,
      (add_assoc first middle last).symm⟩
  · rintro ⟨a, _, last, ⟨x, first, middle, hfirst, hmiddle, rfl⟩, hlast, rfl⟩
    exact ⟨x, first, middle + last, hfirst, ⟨a, middle, last, hmiddle, hlast, rfl⟩,
      add_assoc first middle last⟩

theorem then_congr {P : ι → History E → Prop} {Q Q' : ι → History E → Prop}
    (hQ : ∀ x rest, Q x rest ↔ Q' x rest) : Then P Q h ↔ Then P Q' h := by
  simp only [Then, hQ]

theorem asks_zero (question : Option (E Bool)) : Asks question (0 : History E) := by
  simp [Asks]

theorem asks_called (c : E Bool) (reply : Bool) :
    Asks (some c) ({.called c reply} : History E) := by
  intro e he
  exact ⟨c, reply, rfl, Multiset.mem_singleton.mp he⟩

theorem Asks.add {question : Option (E Bool)} {asked asked' : History E} (h : Asks question asked)
    (h' : Asks question asked') : Asks question (asked + asked') := by
  intro e he
  exact (Multiset.mem_add.mp he).elim (h e) (h' e)

end History

/-! ### Histories of processes -/

namespace Proc

/-- A process has a result after a history. -/
def Does : {α : Type} → Proc E α → α → History E → Prop
  | _, .done b, a, h => b = a ∧ h = 0
  | _, .panic _, _, _ => False
  | _, .ask c next, a, h =>
    History.Then (fun reply first => first = {.called c reply}) (fun reply => Does (next reply) a) h
  | _, .wait _ stop next, a, h =>
    History.Then (fun elapsed first => (elapsed = true ∨ stop.isSome) ∧ History.Asks stop first)
      (fun elapsed => Does (next elapsed) a) h
  | _, .limited deadline stop body next, a, h =>
    History.Then
      (fun ending first => Ending.May body.Yields deadline stop ending ∧
        ∃ asked, History.Asks stop asked ∧ first = {.ran body ending} + asked)
      (fun ending => Does (next ending) a) h
  | _, .all n parts next, a, h =>
    History.Then
      (fun results first => ∃ each : Fin n → History E,
        (∀ i, Does (parts i) (results i) (each i)) ∧ first = ∑ i, each i)
      (fun results => Does (next results) a) h
  | _, .attempt body next, a, h =>
    History.Then (fun ended first => Ended (fun b => Does body b first) ended)
      (fun ended => Does (next ended) a) h
  | _, .own _ body next, a, h =>
    History.Then (fun ended first => Ended (fun b => Does body b first) ended)
      (fun ended => Does (next ended) a) h

variable {h : History E}

@[simp] theorem does_done {a b : α} : (done b : Proc E α).Does a h ↔ b = a ∧ h = 0 := Iff.rfl

theorem does_ask {c : E β} {next : β → Proc E α} {a : α} :
    (ask c next).Does a h ↔
      ∃ reply rest, (next reply).Does a rest ∧ h = {.called c reply} + rest := by
  constructor
  · rintro ⟨reply, _, rest, rfl, hrest, rfl⟩
    exact ⟨reply, rest, hrest, rfl⟩
  · rintro ⟨reply, rest, hrest, rfl⟩
    exact ⟨reply, _, rest, rfl, hrest, rfl⟩

/-- A process that goes on with another does what the one does and then what the other does. -/
theorem does_bind {p : Proc E α} {f : α → Proc E β} {b : β} :
    (p.bind f).Does b h ↔ History.Then p.Does (fun a => (f a).Does b) h := by
  induction p generalizing h with
  | done a =>
      constructor
      · exact fun hb => ⟨a, 0, h, ⟨rfl, rfl⟩, hb, (zero_add h).symm⟩
      · rintro ⟨_, _, rest, ⟨rfl, rfl⟩, hb, rfl⟩
        rwa [zero_add]
  | panic message => exact ⟨False.elim, fun ⟨_, _, _, hp, _⟩ => hp⟩
  | ask c next ih => exact (History.then_congr fun x _ => ih x).trans History.then_assoc
  | wait deadline stop next ih =>
      exact (History.then_congr fun x _ => ih x).trans History.then_assoc
  | limited deadline stop body next _ ih =>
      exact (History.then_congr fun x _ => ih x).trans History.then_assoc
  | all n parts next _ ih =>
      exact (History.then_congr fun x _ => ih x).trans History.then_assoc
  | attempt body next _ ih =>
      exact (History.then_congr fun x _ => ih x).trans History.then_assoc
  | own started body next _ ih =>
      exact (History.then_congr fun x _ => ih x).trans History.then_assoc

/-- What parts do that run side by side, each with a result of its own. -/
inductive EachDoes : List (Proc E α) → List α → History E → Prop where
  | nil : EachDoes [] [] 0
  | cons {p : Proc E α} {a : α} {h : History E} {parts : List (Proc E α)} {results : List α}
      {h' : History E} : p.Does a h → EachDoes parts results h' →
        EachDoes (p :: parts) (a :: results) (h + h')

theorem eachDoes_ofFn {n : Nat} {parts : Fin n → Proc E α} {results : Fin n → α}
    {each : Fin n → History E} (hparts : ∀ i, (parts i).Does (results i) (each i)) :
    EachDoes (List.ofFn parts) (List.ofFn results) (∑ i, each i) := by
  induction n with
  | zero =>
      rw [List.ofFn_zero, List.ofFn_zero, Fin.sum_univ_zero]
      exact .nil
  | succ n ih =>
      rw [List.ofFn_succ, List.ofFn_succ, Fin.sum_univ_succ]
      exact .cons (hparts 0) (ih fun i => hparts i.succ)

theorem sideBySide_does {parts : List (Proc E α)} {results : List α}
    (hdoes : (sideBySide parts).Does results h) : EachDoes parts results h := by
  obtain ⟨f, _, _, ⟨each, hparts, rfl⟩, ⟨rfl, rfl⟩, rfl⟩ := hdoes
  have heach := eachDoes_ofFn hparts
  rwa [List.ofFn_get, ← add_zero (∑ i, each i)] at heach

/-- A result that comes after a history may come of the process. -/
theorem Does.yields {p : Proc E α} {a : α} (hp : p.Does a h) : p.Yields a := by
  induction p generalizing h with
  | done b => exact hp.1
  | panic message => exact hp
  | ask c next ih =>
      obtain ⟨reply, _, _, -, hnext, -⟩ := hp
      exact ⟨reply, ih reply hnext⟩
  | wait deadline stop next ih =>
      obtain ⟨elapsed, _, _, ⟨hmay, -⟩, hnext, -⟩ := hp
      exact ⟨elapsed, hmay, ih elapsed hnext⟩
  | limited deadline stop body next _ ih =>
      obtain ⟨ending, _, _, ⟨hmay, -⟩, hnext, -⟩ := hp
      exact ⟨ending, hmay, ih ending hnext⟩
  | all n parts next ihParts ih =>
      obtain ⟨results, _, _, ⟨each, hparts, -⟩, hnext, -⟩ := hp
      exact ⟨results, fun i => ihParts i (hparts i), ih results hnext⟩
  | attempt body next ihBody ih =>
      obtain ⟨ended, _, _, hended, hnext, -⟩ := hp
      refine ⟨ended, ?_, ih ended hnext⟩
      cases ended with
      | ok b => exact ihBody hended
      | error message => trivial
  | own started body next ihBody ih =>
      obtain ⟨ended, _, _, hended, hnext, -⟩ := hp
      refine ⟨ended, ?_, ih ended hnext⟩
      cases ended with
      | ok b => exact ihBody hended
      | error message => trivial

theorem Ended.exists_does {body : Proc E β} {ended : Except String β}
    (hended : Ended body.Yields ended)
    (hbody : ∀ {b : β}, body.Yields b → ∃ h, body.Does b h) :
    ∃ first, Ended (fun b => body.Does b first) ended := by
  cases ended with
  | ok b => exact hbody hended
  | error message => exact ⟨0, trivial⟩

/-- A result that may come of a process comes after some history. -/
theorem Yields.exists_does {p : Proc E α} {a : α} (hp : p.Yields a) : ∃ h, p.Does a h := by
  induction p with
  | done b => exact ⟨0, hp, rfl⟩
  | panic message => exact hp.elim
  | ask c next ih =>
      obtain ⟨reply, hnext⟩ := hp
      obtain ⟨rest, hrest⟩ := ih reply hnext
      exact ⟨_, does_ask.mpr ⟨reply, rest, hrest, rfl⟩⟩
  | wait deadline stop next ih =>
      obtain ⟨elapsed, hmay, hnext⟩ := hp
      obtain ⟨rest, hrest⟩ := ih elapsed hnext
      exact ⟨_, elapsed, 0, rest, ⟨hmay, History.asks_zero stop⟩, hrest, rfl⟩
  | limited deadline stop body next _ ih =>
      obtain ⟨ending, hmay, hnext⟩ := hp
      obtain ⟨rest, hrest⟩ := ih ending hnext
      exact ⟨_, ending, _, rest, ⟨hmay, 0, History.asks_zero stop, rfl⟩, hrest, rfl⟩
  | all n parts next ihParts ih =>
      obtain ⟨results, hparts, hnext⟩ := hp
      choose each heach using fun i => ihParts i (hparts i)
      obtain ⟨rest, hrest⟩ := ih results hnext
      exact ⟨_, results, _, rest, ⟨each, heach, rfl⟩, hrest, rfl⟩
  | attempt body next ihBody ih =>
      obtain ⟨ended, hended, hnext⟩ := hp
      obtain ⟨rest, hrest⟩ := ih ended hnext
      obtain ⟨first, hfirst⟩ := hended.exists_does ihBody
      exact ⟨_, ended, first, rest, hfirst, hrest, rfl⟩
  | own started body next ihBody ih =>
      obtain ⟨ended, hended, hnext⟩ := hp
      obtain ⟨rest, hrest⟩ := ih ended hnext
      obtain ⟨first, hfirst⟩ := hended.exists_does ihBody
      exact ⟨_, ended, first, rest, hfirst, hrest, rfl⟩

end Proc

/-! ### What is kept of a history -/

/-- What is kept of an event, if something is kept of calls. -/
def Event.kept {X : Type} (keep : (β : Type) → E β → β → Multiset X) : Event E → Multiset X
  | .called (β := β) c reply => keep β c reply
  | .ran _ _ => 0

namespace History

variable {X : Type} (keep : (β : Type) → E β → β → Multiset X)

/-- What is kept of all that a process has done. -/
def kept (h : History E) : Multiset X := h.bind (Event.kept keep)

@[simp] theorem kept_zero : kept keep (0 : History E) = 0 := Multiset.zero_bind _

@[simp] theorem kept_add (h h' : History E) : kept keep (h + h') = kept keep h + kept keep h' :=
  Multiset.add_bind ..

@[simp] theorem kept_called (c : E β) (reply : β) :
    kept keep ({.called c reply} : History E) = keep β c reply :=
  Multiset.singleton_bind ..

@[simp] theorem kept_ran (body : Proc E β) (ending : Ending β) :
    kept keep ({.ran body ending} : History E) = 0 :=
  Multiset.singleton_bind ..

variable {keep}

theorem Asks.kept_eq {question : Option (E Bool)} {asked : History E} (h : Asks question asked)
    (hkeep : ∀ c reply, question = some c → keep Bool c reply = 0) : kept keep asked = 0 := by
  induction asked using Multiset.induction with
  | empty => exact kept_zero keep
  | cons e rest ih =>
      obtain ⟨c, reply, hc, rfl⟩ := h e (Multiset.mem_cons_self _ _)
      rw [← Multiset.singleton_add, kept_add, kept_called, hkeep c reply hc, zero_add]
      exact ih fun e he => h e (Multiset.mem_cons_of_mem he)

end History

/-- A state has a tally of what is kept of the calls of a process and its parts, and nobody else
changes it. -/
structure Tallies {S : Type u} {X : Type} (A : Role → (β : Type) → E β → S → β → S → Prop)
    (keep : (β : Type) → E β → β → Multiset X) (tally : S → Multiset X) : Prop where
  own : ∀ r (β : Type) (c : E β) s reply s', r.Walks → A r β c s reply s' →
    tally s' = tally s + keep β c reply
  others : ∀ r (β : Type) (c : E β) s reply s', r = .guest ∨ r = .request → A r β c s reply s' →
    tally s' = tally s

/-! ### Runs -/

variable {S : Type u} {A : Role → (β : Type) → E β → S → β → S → Prop} {r : Role} {s s' : S}

/-- Two states with what is done from then on agree, whatever there is a tally of. -/
def History.Agree (A : Role → (β : Type) → E β → S → β → S → Prop) (s : S) (h : History E) (s' : S)
    (h' : History E) : Prop :=
  ∀ (X : Type) (keep : (β : Type) → E β → β → Multiset X) (tally : S → Multiset X),
    Tallies A keep tally → tally s + h.kept keep = tally s' + h'.kept keep

namespace History.Agree

variable {h h' rest made : History E}

theorem refl (s : S) (h : History E) : Agree A s h s h := fun _ _ _ _ => rfl

theorem trans {s'' : S} {h'' : History E} (hfirst : Agree A s h s' h')
    (hthen : Agree A s' h' s'' h'') : Agree A s h s'' h'' :=
  fun X keep tally T => (hfirst X keep tally T).trans (hthen X keep tally T)

theorem called (hr : r.Walks) {c : E β} {reply : β} (hc : A r β c s reply s') :
    Agree A s {.called c reply} s' 0 := by
  intro X keep tally T
  rw [kept_called, kept_zero, add_zero, T.own r β c s reply s' hr hc]

theorem before (hmade : Agree A s made s' 0) (rest : History E) :
    Agree A s (made + rest) s' rest := by
  intro X keep tally T
  have heq := hmade X keep tally T
  rw [kept_zero, add_zero] at heq
  rw [kept_add, ← add_assoc, heq]

theorem add (hfirst : Agree A s h s' h') (rest : History E) :
    Agree A s (h + rest) s' (h' + rest) := by
  intro X keep tally T
  rw [kept_add, kept_add, ← add_assoc, ← add_assoc, hfirst X keep tally T]

theorem of_ran (hmade : Agree A s made s' 0) (body : Proc E β) (ending : Ending β) :
    Agree A s ({.ran body ending} + made) s' 0 := by
  intro X keep tally T
  rw [kept_add, kept_ran, zero_add, hmade X keep tally T]

theorem ran (hasked : Agree A s h s' h') (body body' : Proc E β) (ending : Ending β) :
    Agree A s ({.ran body ending} + h) s' ({.ran body' ending} + h') := by
  intro X keep tally T
  rw [kept_add, kept_add, kept_ran, kept_ran, zero_add, zero_add, hasked X keep tally T]

/-- Among parts that run side by side, one has done more. -/
theorem sum {n : Nat} {each : Fin n → History E} (i : Fin n)
    (hi : Agree A s h s' (each i)) :
    Agree A s (∑ j, Function.update each i h j) s' (∑ j, each j) := by
  intro X keep tally T
  have hmem : i ∈ Finset.univ := Finset.mem_univ i
  rw [Finset.sum_update_of_mem hmem, Finset.sdiff_singleton_eq_erase,
    ← Finset.add_sum_erase _ each hmem]
  exact hi.add _ X keep tally T

end History.Agree

namespace Proc

/-- A step that is not taken in the name of a process changes none of its tallies. -/
theorem Step.tally_eq {p q : Proc E α} {left : List (Proc E Unit)} (hstep : Step A r p s left q s')
    (hr : r = .guest ∨ r = .request) {X : Type} {keep : (β : Type) → E β → β → Multiset X}
    {tally : S → Multiset X} (T : Tallies A keep tally) : tally s' = tally s := by
  rcases hstep.changes with rfl | ⟨other, hother, β, c, reply, -, hc⟩
  · rfl
  · refine T.others other β c s reply s' ?_ hc
    rcases hr with rfl | rfl <;> rcases hother with rfl | rfl | rfl <;> simp [Role.part]

theorem Step.agree {p q : Proc E α} {left : List (Proc E Unit)} (hstep : Step A r p s left q s')
    (hr : r = .guest ∨ r = .request) (h : History E) : History.Agree A s h s' h := by
  intro X keep tally T
  rw [hstep.tally_eq hr T]

/-- A step of a process makes one call in its name, or none. -/
theorem Step.makes {p q : Proc E α} {left : List (Proc E Unit)} (hstep : Step A r p s left q s')
    (hr : r.Walks) : ∃ made, History.Agree A s made s' (0 : History E) := by
  rcases hstep.changes with rfl | ⟨other, rfl | rfl | rfl, β, c, reply, -, hc⟩
  · exact ⟨0, .refl _ 0⟩
  · exact ⟨_, .called hr hc⟩
  · exact ⟨_, .called hr.part hc⟩
  · exact ⟨0, fun X keep tally T => by rw [T.others .guest β c s reply s' (.inl rfl) hc]⟩

/-- Where a part may break off, what it has done until then may be anything; so the call of a step
comes before it. -/
theorem ended_does {body body' : Proc E β} {left : List (Proc E Unit)}
    (hstep : Step A r body s left body' s') (hr : r.Walks)
    (ih : ∀ {b : β} {h' : History E}, body'.Does b h' →
      ∃ h, body.Does b h ∧ History.Agree A s h s' h')
    {next : Except String β → History E → Prop} {h' : History E}
    (hq : History.Then (fun ended first => Ended (fun b => body'.Does b first) ended) next h') :
    ∃ h, History.Then (fun ended first => Ended (fun b => body.Does b first) ended) next h ∧
      History.Agree A s h s' h' := by
  obtain ⟨ended, first, rest, hended, hnext, rfl⟩ := hq
  cases ended with
  | ok b =>
      obtain ⟨before, hbefore, hagree⟩ := ih hended
      exact ⟨_, ⟨.ok b, before, rest, hbefore, hnext, rfl⟩, hagree.add rest⟩
  | error message =>
      obtain ⟨made, hmade⟩ := hstep.makes hr
      exact ⟨_, ⟨.error message, made + first, rest, trivial, hnext, rfl⟩,
        (hmade.before first).add rest⟩

/-- What a process does after a step and in the step itself is what it does before. -/
theorem Step.does {p q : Proc E α} {left : List (Proc E Unit)} (hstep : Step A r p s left q s')
    (hr : r.Walks) {a : α} {h' : History E} (hq : q.Does a h') :
    ∃ h, p.Does a h ∧ History.Agree A s h s' h' := by
  induction hstep generalizing h' with
  | ask hc => exact ⟨_, does_ask.mpr ⟨_, h', hq, rfl⟩, (History.Agree.called hr hc).before h'⟩
  | begun _ => exact ⟨h', hq, .refl _ _⟩
  | elapsed =>
      refine ⟨0 + h', ⟨true, 0, h', ⟨.inl rfl, History.asks_zero _⟩, hq, rfl⟩, ?_⟩
      exact (History.Agree.refl _ 0).before h'
  | @stopped r _ d c next s s' hc =>
      refine ⟨{.called c true} + h', ⟨false, _, h', ⟨.inr rfl, ?_⟩, hq, rfl⟩, ?_⟩
      · exact History.asks_called c true
      · exact (History.Agree.called hr.part hc).before h'
  | @notStopped r _ d c next s s' hc =>
      obtain ⟨elapsed, asked, rest, ⟨hmay, hasked⟩, hnext, rfl⟩ := hq
      refine ⟨_, ⟨elapsed, {.called c false} + asked, rest, ⟨hmay, ?_⟩, hnext, rfl⟩, ?_⟩
      · exact (History.asks_called c false).add hasked
      · exact ((History.Agree.called hr.part hc).before asked).add rest
  | limited hbody _ =>
      obtain ⟨ending, _, rest, ⟨hmay, asked, hasked, rfl⟩, hnext, rfl⟩ := hq
      refine ⟨_, ⟨ending, _, rest, ⟨?_, asked, hasked, rfl⟩, hnext, rfl⟩, ?_⟩
      · cases ending with
        | finished b => exact hbody.yields hmay
        | timedOut => exact hmay
        | stopped => exact hmay
      · exact ((hbody.agree (.inl rfl) asked).ran _ _ ending).add rest
  | limitBegun d' =>
      obtain ⟨ending, _, rest, ⟨hmay, asked, hasked, rfl⟩, hnext, rfl⟩ := hq
      refine ⟨_, ⟨ending, _, rest, ⟨?_, asked, hasked, rfl⟩, hnext, rfl⟩, .refl _ _⟩
      cases ending with
      | finished b => exact hmay
      | timedOut => rfl
      | stopped => exact hmay
  | limitDone =>
      refine ⟨_, ⟨.finished _, _, h', ⟨rfl, 0, History.asks_zero _, rfl⟩, hq, rfl⟩, ?_⟩
      exact ((History.Agree.refl _ 0).of_ran _ _).before h'
  | limitPanic => exact hq.elim
  | limitElapsed =>
      refine ⟨_, ⟨.timedOut, _, h', ⟨rfl, 0, History.asks_zero _, rfl⟩, hq, rfl⟩, ?_⟩
      exact ((History.Agree.refl _ 0).of_ran _ _).before h'
  | @limitStopped r _ _ d c body next s s' hc =>
      refine ⟨_, ⟨.stopped, _, h', ⟨rfl, _, History.asks_called c true, rfl⟩, hq, rfl⟩, ?_⟩
      exact ((History.Agree.called hr.part hc).of_ran _ _).before h'
  | @limitNotStopped r _ _ d c body next s s' hc =>
      obtain ⟨ending, _, rest, ⟨hmay, asked, hasked, rfl⟩, hnext, rfl⟩ := hq
      refine ⟨_, ⟨ending, _, rest,
        ⟨hmay, _, (History.asks_called c false).add hasked, rfl⟩, hnext, rfl⟩, ?_⟩
      exact (((History.Agree.called hr.part hc).before asked).ran _ _ ending).add rest
  | @part r _ _ n parts next s s' left q i _ ih =>
      obtain ⟨results, _, rest, ⟨each, hparts, rfl⟩, hnext, rfl⟩ := hq
      have hi := hparts i
      rw [Function.update_self] at hi
      obtain ⟨first, hfirst, hagree⟩ := ih hr.part hi
      refine ⟨_, ⟨results, _, rest, ⟨Function.update each i first, fun j => ?_, rfl⟩, hnext, rfl⟩,
        (hagree.sum i).add rest⟩
      by_cases hj : j = i
      · subst hj
        rwa [Function.update_self]
      · have hother := hparts j
        rw [Function.update_of_ne hj] at hother ⊢
        exact hother
  | partsDone hdone =>
      refine ⟨0 + h', ⟨_, 0, h', ⟨fun _ => 0, fun i => ?_, ?_⟩, hq, rfl⟩, ?_⟩
      · rw [hdone i]
        exact ⟨rfl, rfl⟩
      · rw [Finset.sum_const_zero]
      · exact (History.Agree.refl _ 0).before h'
  | partPanic => exact hq.elim
  | attempt hbody ih => exact ended_does hbody hr (ih hr) hq
  | attemptDone =>
      exact ⟨0 + h', ⟨.ok _, 0, h', ⟨rfl, rfl⟩, hq, rfl⟩, (History.Agree.refl _ 0).before h'⟩
  | attemptPanic =>
      exact ⟨0 + h', ⟨.error _, 0, h', trivial, hq, rfl⟩, (History.Agree.refl _ 0).before h'⟩
  | ownStarted => exact ⟨h', hq, .refl _ _⟩
  | own hbody ih => exact ended_does hbody hr (ih hr) hq
  | ownDone =>
      exact ⟨0 + h', ⟨.ok _, 0, h', ⟨rfl, rfl⟩, hq, rfl⟩, (History.Agree.refl _ 0).before h'⟩
  | ownPanic =>
      exact ⟨0 + h', ⟨.error _, 0, h', trivial, hq, rfl⟩, (History.Agree.refl _ 0).before h'⟩

end Proc

namespace Pool

variable {ρ : Type} {opens : S → Proc E ρ → Prop} {a b : Pool E S α ρ}

/-- Nothing that a process does in a pool is missed: it comes to its result with a history, and
every tally of its calls has grown by what is kept of this. -/
theorem exists_history (h : Reaches A opens a b) {result : α} (hdone : b.main = .done result) :
    ∃ history, a.main.Does result history ∧
      ∀ (X : Type) (keep : (β : Type) → E β → β → Multiset X) (tally : S → Multiset X),
        Tallies A keep tally → tally b.state = tally a.state + history.kept keep := by
  -- From the last step backwards, each one adds to what is done from then on.
  have hlast : ∃ history, a.main.Does result history ∧
      History.Agree A a.state history b.state (0 : History E) := by
    induction h using Relation.ReflTransGen.head_induction_on with
    | refl => exact ⟨0, hdone ▸ ⟨rfl, rfl⟩, .refl _ 0⟩
    | head hmove _ ih =>
        obtain ⟨history, hdoes, hagree⟩ := ih
        rcases move_cases hmove with ⟨_, hstep, -⟩ | ⟨_, _, _, _, _, -, hstep, hmain, -⟩ |
          ⟨_, _, _, _, _, -, hstep, hmain, -⟩ | ⟨_, -, rfl⟩
        · obtain ⟨before, hbefore, hmore⟩ := hstep.does (.inl rfl) hdoes
          exact ⟨before, hbefore, hmore.trans hagree⟩
        · exact ⟨history, hmain ▸ hdoes, (hstep.agree (.inl rfl) history).trans hagree⟩
        · exact ⟨history, hmain ▸ hdoes, (hstep.agree (.inr rfl) history).trans hagree⟩
        · exact ⟨history, hdoes, hagree⟩
  obtain ⟨history, hdoes, hagree⟩ := hlast
  refine ⟨history, hdoes, fun X keep tally T => ?_⟩
  rw [hagree X keep tally T, History.kept_zero, add_zero]

end Pool

end Workflow
