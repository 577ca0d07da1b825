import Workflow.Proofs.Process.Ensures

/-!
# Messages of panics

Whether a process may break off with a message is read off its text, whatever its calls are answered
and however its parts end.  Nothing is missed by it: a process breaks off only with such a message,
whatever else it ensures (`Ensures.mayPanic`).
-/

namespace Workflow

universe u

namespace Proc

variable {E : Type → Type 1} {α β : Type} {m : String}

/-- A process may break off with a message. -/
def MayPanic (m : String) : {α : Type} → Proc E α → Prop
  | _, .done _ => False
  | _, .panic message => message = m
  | _, .ask _ next => ∃ reply, (next reply).MayPanic m
  | _, .wait _ _ next => ∃ elapsed, (next elapsed).MayPanic m
  | _, .limited _ _ body next => body.MayPanic m ∨ ∃ ending, (next ending).MayPanic m
  | _, .all _ parts next => (∃ i, (parts i).MayPanic m) ∨ ∃ results, (next results).MayPanic m
  | _, .attempt body next =>
    (∃ b, (next (.ok b)).MayPanic m) ∨
      ∃ cause, body.MayPanic cause ∧ (next (.error cause)).MayPanic m
  | _, .own _ body next =>
    (∃ b, (next (.ok b)).MayPanic m) ∨
      ∃ cause, body.MayPanic cause ∧ (next (.error cause)).MayPanic m

@[simp] theorem not_mayPanic_done {a : α} : ¬(done a : Proc E α).MayPanic m := not_false

theorem mayPanic_of_bind {p : Proc E α} {f : α → Proc E β} (h : (p.bind f).MayPanic m) :
    p.MayPanic m ∨ ∃ a, (f a).MayPanic m := by
  induction p with
  | done a => exact .inr ⟨a, h⟩
  | panic message => exact .inl h
  | ask c next ih =>
      obtain ⟨reply, hnext⟩ := h
      exact (ih reply hnext).imp_left fun hreply => ⟨reply, hreply⟩
  | wait deadline stop next ih =>
      obtain ⟨elapsed, hnext⟩ := h
      exact (ih elapsed hnext).imp_left fun helapsed => ⟨elapsed, helapsed⟩
  | limited deadline stop body next _ ih =>
      rcases h with hbody | ⟨ending, hnext⟩
      · exact .inl (.inl hbody)
      · exact (ih ending hnext).imp_left fun hending => .inr ⟨ending, hending⟩
  | all n parts next _ ih =>
      rcases h with hpart | ⟨results, hnext⟩
      · exact .inl (.inl hpart)
      · exact (ih results hnext).imp_left fun hresults => .inr ⟨results, hresults⟩
  | attempt body next _ ih =>
      rcases h with ⟨b, hnext⟩ | ⟨cause, hbody, hnext⟩
      · exact (ih _ hnext).imp_left fun hb => .inl ⟨b, hb⟩
      · exact (ih _ hnext).imp_left fun hcause => .inr ⟨cause, hbody, hcause⟩
  | own started body next _ ih =>
      rcases h with ⟨b, hnext⟩ | ⟨cause, hbody, hnext⟩
      · exact (ih _ hnext).imp_left fun hb => .inl ⟨b, hb⟩
      · exact (ih _ hnext).imp_left fun hcause => .inr ⟨cause, hbody, hcause⟩

theorem mayPanic_of_sideBySide {parts : List (Proc E α)} (h : (sideBySide parts).MayPanic m) :
    ∃ p ∈ parts, p.MayPanic m := by
  rcases h with ⟨i, hpart⟩ | ⟨results, hdone⟩
  · exact ⟨parts.get i, parts.get_mem i, hpart⟩
  · exact hdone.elim

/-- The call that is made at the end adds no panic of its own. -/
theorem mayPanic_of_closing {p : Proc E α} {c : E Unit} (h : (p.closing c).MayPanic m) :
    p.MayPanic m := by
  rcases h with ⟨b, _, hdone⟩ | ⟨cause, hbody, _, hcause⟩
  · exact hdone.elim
  · obtain rfl : cause = m := hcause
    exact hbody

section

variable {S : Type u} {R : Rules E S} {r : Role} {p : Proc E α} {Q : α → S → Prop}
  {X X' : String → S → Prop} {s : S}

theorem Ensures.panics_mono (h : Ensures R r p Q X s) (hX : ∀ m s, X m s → X' m s) :
    Ensures R r p Q X' s := h.mono (fun _ _ hQ => hQ) hX

/-- Whatever a process ensures, it breaks off with those messages only with which it may. -/
theorem Ensures.mayPanic (h : Ensures R r p Q X s) :
    Ensures R r p Q (fun m s => X m s ∧ p.MayPanic m) s := by
  induction p generalizing r s X with
  | done a => exact h
  | panic message => exact fun t ht => ⟨h t ht, rfl⟩
  | ask c next ih =>
      intro t ht
      obtain ⟨hperm, hnext⟩ := h t ht
      refine ⟨hperm, fun reply t' hreply => ?_⟩
      exact (ih reply (hnext reply t' hreply)).panics_mono fun m _ hm => ⟨hm.1, reply, hm.2⟩
  | wait deadline stop next ih =>
      have hlater : ∀ elapsed t, Ensures R r (next elapsed) Q X t → Ensures R r (next elapsed) Q
          (fun m t => X m t ∧ (wait deadline stop next).MayPanic m) t := fun elapsed t hnext =>
        (ih elapsed hnext).panics_mono fun m _ hm => ⟨hm.1, elapsed, hm.2⟩
      intro t ht
      obtain ⟨htrue, hstop⟩ := h t ht
      refine ⟨hlater true t htrue, fun c hc => ?_⟩
      obtain ⟨hperm, hfalse⟩ := hstop c hc
      exact ⟨hperm, fun t' ht' => hlater false t' (hfalse t' ht')⟩
  | limited deadline stop body next ihBody ih =>
      obtain ⟨P, Y, hbody, hnext⟩ := h
      have hlater : ∀ ending t, Ensures R r (next ending) Q X t → Ensures R r (next ending) Q
          (fun m t => X m t ∧ (limited deadline stop body next).MayPanic m) t :=
        fun ending t hending =>
          (ih ending hending).panics_mono fun m _ hm => ⟨hm.1, .inr ⟨ending, hm.2⟩⟩
      refine ⟨P, _, ihBody hbody, fun t ht => ?_⟩
      obtain ⟨hdone, hpanic, hlate, hstop⟩ := hnext t ht
      refine ⟨fun b hb => hlater _ t (hdone b hb), fun m hm => ⟨hpanic m hm.1, .inl hm.2⟩,
        hlater _ t hlate, fun c hc => ?_⟩
      obtain ⟨hperm, hstopped⟩ := hstop c hc
      exact ⟨hperm, fun t' ht' => hlater _ t' (hstopped t' ht')⟩
  | all n parts next ihParts ih =>
      obtain ⟨P, Y, hparts, hnext⟩ := h
      have hpart : ∀ i, Ensures R r.part (parts i) (P i)
          (fun m t => Y m t ∧ ∃ i, (parts i).MayPanic m) s := fun i =>
        (ihParts i (hparts i)).panics_mono fun m _ hm => ⟨hm.1, i, hm.2⟩
      refine ⟨P, _, hpart, fun t ht => ?_⟩
      obtain ⟨hdone, hpanic⟩ := hnext t ht
      refine ⟨fun results hresults => ?_, fun m hm => ⟨hpanic m hm.1, .inl hm.2⟩⟩
      exact (ih results (hdone results hresults)).panics_mono
        fun m _ hm => ⟨hm.1, .inr ⟨results, hm.2⟩⟩
  | attempt body next ihBody ih =>
      obtain ⟨P, Y, hbody, hnext⟩ := h
      refine ⟨P, _, ihBody hbody, fun t => ⟨fun b hb => ?_, fun cause hcause => ?_⟩⟩
      · exact (ih _ ((hnext t).1 b hb)).panics_mono fun m _ hm => ⟨hm.1, .inl ⟨b, hm.2⟩⟩
      · exact (ih _ ((hnext t).2 cause hcause.1)).panics_mono
          fun m _ hm => ⟨hm.1, .inr ⟨cause, hcause.2, hm.2⟩⟩
  | own started body next ihBody ih =>
      obtain ⟨hr, P, Y, hbody, hnext⟩ := h
      refine ⟨hr, P, _, ihBody hbody, fun t => ⟨fun b hb => ?_, fun cause hcause => ?_⟩⟩
      · exact (ih _ ((hnext t).1 b hb)).panics_mono fun m _ hm => ⟨hm.1, .inl ⟨b, hm.2⟩⟩
      · exact (ih _ ((hnext t).2 cause hcause.1)).panics_mono
          fun m _ hm => ⟨hm.1, .inr ⟨cause, hcause.2, hm.2⟩⟩

end

end Proc

end Workflow
