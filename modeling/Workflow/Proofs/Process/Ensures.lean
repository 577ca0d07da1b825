import Workflow.Proofs.Process.Step

/-!
# What a process ensures

A house has rules: which calls may be made in which state, by the role of the caller, and what
they are answered.  `Ensures` says of a process that it keeps to the rules and that its result
has a property, whatever goes on beside it as long as that keeps to the rules too.  It is defined
along the process, so that every function that builds one has a law of its own.  The main
statement is that steps preserve it (`Ensures.step`, `Pool.Sound.move`): what a process ensures
in the beginning is so at every moment of every interleaving.
-/

namespace Workflow

open Relation

universe u

/-- What calls are answered, and which calls may be made. -/
structure Rules (E : Type → Type 1) (S : Type u) where
  answers : Role → (β : Type) → E β → S → β → S → Prop
  permits : Role → (β : Type) → E β → S → Prop

namespace Rules

variable {E : Type → Type 1} {S : Type u} (R : Rules E S)

/-- A state changes by the answer to a call that may be made. -/
def Moves (r : Role) (s s' : S) : Prop :=
  ∃ (β : Type) (c : E β) (b : β), R.permits r β c s ∧ R.answers r β c s b s'

/-- What may happen between two steps of somebody with a role. -/
def Meanwhile (r : Role) : S → S → Prop :=
  ReflTransGen fun s s' => ∃ other, r.Meets other ∧ R.Moves other s s'

/-- A property that stays whatever happens between two steps. -/
def Stable (r : Role) (F : S → Prop) : Prop :=
  ∀ other, r.Meets other → ∀ s s', R.Moves other s s' → F s → F s'

variable {R}

theorem Meanwhile.refl {r : Role} (s : S) : R.Meanwhile r s s := ReflTransGen.refl

theorem Meanwhile.of_moves {r other : Role} {s s' : S} (hr : r.Meets other)
    (h : R.Moves other s s') : R.Meanwhile r s s' := ReflTransGen.single ⟨other, hr, h⟩

theorem Meanwhile.mono {r t : Role} (hrt : ∀ other, t.Meets other → r.Meets other) {s s' : S}
    (h : R.Meanwhile t s s') : R.Meanwhile r s s' :=
  ReflTransGen.mono (fun _ _ ⟨other, ho, hm⟩ => ⟨other, hrt other ho, hm⟩) _ _ h

@[simp] theorem meanwhile_part (r : Role) : R.Meanwhile r.part = R.Meanwhile r := by
  simp only [Meanwhile, Role.part_meets]

theorem Stable.meanwhile {r : Role} {F : S → Prop} (hF : R.Stable r F) {s s' : S}
    (h : R.Meanwhile r s s') (hs : F s) : F s' := by
  induction h with
  | refl => exact hs
  | tail _ hstep ih =>
      obtain ⟨other, ho, hm⟩ := hstep
      exact hF other ho _ _ hm ih

theorem stable_true (r : Role) : R.Stable r fun _ => True := fun _ _ _ _ _ _ => trivial

/-- The roles whose calls a process makes in its own name: its own, that of its parts, and that
of what runs under its limits. -/
def Under (r other : Role) : Prop := other = r ∨ other = r.part ∨ other = .guest

/-- The state is as it was, or changed by a call that may be made in the name of a role. -/
def Moved (R : Rules E S) (r : Role) (s s' : S) : Prop :=
  s' = s ∨ ∃ other, Under r other ∧ R.Moves other s s'

theorem Moved.refl {r : Role} {s : S} : R.Moved r s s := .inl rfl

theorem Moved.of_moves {r : Role} {s s' : S} (h : R.Moves r s s') : R.Moved r s s' :=
  .inr ⟨r, .inl rfl, h⟩

theorem Moved.of_part {r : Role} {s s' : S} (h : R.Moves r.part s s') : R.Moved r s s' :=
  .inr ⟨r.part, .inr (.inl rfl), h⟩

theorem Moved.mono {r t : Role} {s s' : S} (h : R.Moved t s s')
    (ht : ∀ other, Under t other → Under r other) : R.Moved r s s' := by
  rcases h with rfl | ⟨other, ho, hm⟩
  · exact .refl
  · exact .inr ⟨other, ht other ho, hm⟩

theorem Moved.meanwhile {r t : Role} {s s' : S} (h : R.Moved t s s')
    (ht : ∀ other, Under t other → r.Meets other) : R.Meanwhile r s s' := by
  rcases h with rfl | ⟨other, ho, hm⟩
  · exact .refl _
  · exact .of_moves (ht other ho) hm

/-- Every call may be made. -/
def lax (A : Role → (β : Type) → E β → S → β → S → Prop) : Rules E S := ⟨A, fun _ _ _ _ => True⟩

end Rules

namespace Proc

variable {E : Type → Type 1} {S : Type u}

/-- A step leaves the state as it is, or changes it by a call that is made in the name of its
process. -/
theorem Step.changes {A : Role → (β : Type) → E β → S → β → S → Prop} {r : Role} {α : Type}
    {p q : Proc E α} {left : List (Proc E Unit)} {s s' : S} (hstep : Step A r p s left q s') :
    (Rules.lax A).Moved r s s' := by
  induction hstep with
  | ask hanswer => exact .of_moves ⟨_, _, _, trivial, hanswer⟩
  | stopped hanswer => exact .of_part ⟨_, _, _, trivial, hanswer⟩
  | notStopped hanswer => exact .of_part ⟨_, _, _, trivial, hanswer⟩
  | limited _ ih => exact ih.mono (by rintro other (rfl | rfl | rfl) <;> exact .inr (.inr rfl))
  | limitStopped hanswer => exact .of_part ⟨_, _, _, trivial, hanswer⟩
  | limitNotStopped hanswer => exact .of_part ⟨_, _, _, trivial, hanswer⟩
  | part i _ ih => exact ih.mono (by rintro other (rfl | rfl | rfl) <;> simp [Rules.Under])
  | attempt _ ih => exact ih
  | own _ ih => exact ih
  | _ => exact .refl

/-- A process keeps to the rules, and has a result with a property or a panic with another,
whatever happens meanwhile.  Tasks of their own are left to those who may leave them behind. -/
def Ensures (R : Rules E S) : Role → {α : Type} → Proc E α → (α → S → Prop) →
    (String → S → Prop) → S → Prop
  | r, _, .done a, Q, _, s => ∀ s', R.Meanwhile r s s' → Q a s'
  | r, _, .panic m, _, X, s => ∀ s', R.Meanwhile r s s' → X m s'
  | r, _, .ask (β := β) c next, Q, X, s =>
    ∀ s', R.Meanwhile r s s' → R.permits r β c s' ∧
      ∀ b s'', R.answers r β c s' b s'' → Ensures R r (next b) Q X s''
  | r, _, .wait _ stop next, Q, X, s =>
    ∀ s', R.Meanwhile r s s' → Ensures R r (next true) Q X s' ∧
      ∀ c, stop = some c → R.permits r.part Bool c s' ∧
        ∀ s'', R.answers r.part Bool c s' true s'' → Ensures R r (next false) Q X s''
  | r, _, .limited (β := β) _ stop body next, Q, X, s =>
    ∃ (P : β → S → Prop) (Y : String → S → Prop), Ensures R .guest body P Y s ∧
      ∀ s', R.Meanwhile r s s' →
        (∀ b, P b s' → Ensures R r (next (.finished b)) Q X s') ∧
        (∀ m, Y m s' → X m s') ∧ Ensures R r (next .timedOut) Q X s' ∧
        ∀ c, stop = some c → R.permits r.part Bool c s' ∧
          ∀ s'', R.answers r.part Bool c s' true s'' → Ensures R r (next .stopped) Q X s''
  | r, _, .all (β := β) n parts next, Q, X, s =>
    ∃ (P : Fin n → β → S → Prop) (Y : String → S → Prop),
      (∀ i, Ensures R r.part (parts i) (P i) Y s) ∧
      ∀ s', R.Meanwhile r s s' →
        (∀ results, (∀ i, P i (results i) s') → Ensures R r (next results) Q X s') ∧
        ∀ m, Y m s' → X m s'
  | r, _, .attempt (β := β) body next, Q, X, s =>
    ∃ (P : β → S → Prop) (Y : String → S → Prop), Ensures R r body P Y s ∧
      ∀ s', (∀ b, P b s' → Ensures R r (next (.ok b)) Q X s') ∧
        ∀ m, Y m s' → Ensures R r (next (.error m)) Q X s'
  | r, _, .own (β := β) _ body next, Q, X, s =>
    (r = .owner ∨ r = .guest) ∧
    ∃ (P : β → S → Prop) (Y : String → S → Prop), Ensures R r body P Y s ∧
      ∀ s', (∀ b, P b s' → Ensures R r (next (.ok b)) Q X s') ∧
        ∀ m, Y m s' → Ensures R r (next (.error m)) Q X s'

variable {R : Rules E S} {r : Role} {α β : Type} {s s' : S}

/-- All calls of a process are of a kind: its own, those of what it runs or starts, and those that
ask whether to stop. -/
def MakesOnly (K : (β : Type) → E β → Prop) : {α : Type} → Proc E α → Prop
  | _, .done _ => True
  | _, .panic _ => True
  | _, .ask (β := β) c next => K β c ∧ ∀ reply, (next reply).MakesOnly K
  | _, .wait _ stop next => (∀ c, stop = some c → K Bool c) ∧ ∀ elapsed, (next elapsed).MakesOnly K
  | _, .limited _ stop body next =>
    (∀ c, stop = some c → K Bool c) ∧ body.MakesOnly K ∧ ∀ ending, (next ending).MakesOnly K
  | _, .all _ parts next => (∀ i, (parts i).MakesOnly K) ∧ ∀ results, (next results).MakesOnly K
  | _, .attempt body next => body.MakesOnly K ∧ ∀ result, (next result).MakesOnly K
  | _, .own _ body next => body.MakesOnly K ∧ ∀ result, (next result).MakesOnly K

theorem makesOnly_true (p : Proc E α) : p.MakesOnly fun _ _ => True := by
  induction p with
  | done a => trivial
  | panic m => trivial
  | ask c next ih => exact ⟨trivial, ih⟩
  | wait d stop next ih => exact ⟨fun _ _ => trivial, ih⟩
  | limited d stop body next ihBody ih => exact ⟨fun _ _ => trivial, ihBody, ih⟩
  | all n parts next ihParts ih => exact ⟨ihParts, ih⟩
  | attempt body next ihBody ih => exact ⟨ihBody, ih⟩
  | own started body next ihBody ih => exact ⟨ihBody, ih⟩

/-- Where guests may make all calls of a kind, a process that makes no others keeps to the rules as
a guest. -/
theorem MakesOnly.ensures {K : (β : Type) → E β → Prop}
    (hK : ∀ (β : Type) (c : E β) s, K β c → R.permits .guest β c s) {p : Proc E α}
    (hp : p.MakesOnly K) (s : S) :
    Ensures R .guest p (fun _ _ => True) (fun _ _ => True) s := by
  induction p generalizing s with
  | done a => exact fun _ _ => trivial
  | panic m => exact fun _ _ => trivial
  | ask c next ih => exact fun t _ => ⟨hK _ c t hp.1, fun b t' _ => ih b (hp.2 b) t'⟩
  | wait d stop next ih =>
      refine fun t _ => ⟨ih true (hp.2 true) t, fun c hc => ?_⟩
      exact ⟨hK _ c t (hp.1 c hc), fun t' _ => ih false (hp.2 false) t'⟩
  | limited d stop body next ihBody ih =>
      obtain ⟨hstop, hbody, hnext⟩ := hp
      refine ⟨fun _ _ => True, fun _ _ => True, ihBody hbody s, fun t _ => ?_⟩
      exact ⟨fun _ _ => ih _ (hnext _) t, fun _ _ => trivial, ih _ (hnext _) t,
        fun c hc => ⟨hK _ c t (hstop c hc), fun t' _ => ih _ (hnext _) t'⟩⟩
  | all n parts next ihParts ih =>
      refine ⟨fun _ _ _ => True, fun _ _ => True, fun i => ihParts i (hp.1 i) s, fun t _ => ?_⟩
      exact ⟨fun results _ => ih results (hp.2 results) t, fun _ _ => trivial⟩
  | attempt body next ihBody ih =>
      refine ⟨fun _ _ => True, fun _ _ => True, ihBody hp.1 s, fun t => ?_⟩
      exact ⟨fun _ _ => ih _ (hp.2 _) t, fun _ _ => ih _ (hp.2 _) t⟩
  | own started body next ihBody ih =>
      refine ⟨.inr rfl, fun _ _ => True, fun _ _ => True, ihBody hp.1 s, fun t => ?_⟩
      exact ⟨fun _ _ => ih _ (hp.2 _) t, fun _ _ => ih _ (hp.2 _) t⟩

namespace Ensures

variable {Q Q' : α → S → Prop} {X X' : String → S → Prop}

theorem later {p : Proc E α} (h : Ensures R r p Q X s) (hs : R.Meanwhile r s s') :
    Ensures R r p Q X s' := by
  induction p generalizing r s s' X with
  | done a => exact fun t ht => h t (hs.trans ht)
  | panic m => exact fun t ht => h t (hs.trans ht)
  | ask c next _ => exact fun t ht => h t (hs.trans ht)
  | wait d stop next _ => exact fun t ht => h t (hs.trans ht)
  | limited d stop body next ihBody _ =>
      obtain ⟨P, Y, hbody, hnext⟩ := h
      refine ⟨P, Y, ihBody hbody (hs.mono fun other _ => Role.guest_meets other), ?_⟩
      exact fun t ht => hnext t (hs.trans ht)
  | all n parts next ihParts _ =>
      obtain ⟨P, Y, hparts, hnext⟩ := h
      refine ⟨P, Y, fun i => ihParts i (hparts i) ?_, fun t ht => hnext t (hs.trans ht)⟩
      rwa [Rules.meanwhile_part]
  | attempt body next ihBody _ =>
      obtain ⟨P, Y, hbody, hnext⟩ := h
      exact ⟨P, Y, ihBody hbody hs, hnext⟩
  | own started body next ihBody _ =>
      obtain ⟨hr, P, Y, hbody, hnext⟩ := h
      exact ⟨hr, P, Y, ihBody hbody hs, hnext⟩

theorem mono {p : Proc E α} (h : Ensures R r p Q X s) (hQ : ∀ a s, Q a s → Q' a s)
    (hX : ∀ m s, X m s → X' m s) : Ensures R r p Q' X' s := by
  induction p generalizing s with
  | done a => exact fun t ht => hQ a t (h t ht)
  | panic m => exact fun t ht => hX m t (h t ht)
  | ask c next ih =>
      intro t ht
      obtain ⟨hperm, hnext⟩ := h t ht
      exact ⟨hperm, fun b t' hb => ih b (hnext b t' hb) hQ⟩
  | wait d stop next ih =>
      intro t ht
      obtain ⟨htrue, hstop⟩ := h t ht
      refine ⟨ih true htrue hQ, fun c hc => ?_⟩
      exact ⟨(hstop c hc).1, fun t' hb => ih false ((hstop c hc).2 t' hb) hQ⟩
  | limited d stop body next _ ih =>
      obtain ⟨P, Y, hbody, hnext⟩ := h
      refine ⟨P, Y, hbody, fun t ht => ?_⟩
      obtain ⟨hdone, hpanic, hlate, hstop⟩ := hnext t ht
      refine ⟨fun b hb => ih _ (hdone b hb) hQ, fun m hm => hX m t (hpanic m hm),
        ih _ hlate hQ, fun c hc => ?_⟩
      exact ⟨(hstop c hc).1, fun t' hb => ih _ ((hstop c hc).2 t' hb) hQ⟩
  | all n parts next _ ih =>
      obtain ⟨P, Y, hparts, hnext⟩ := h
      refine ⟨P, Y, hparts, fun t ht => ?_⟩
      exact ⟨fun results hr => ih _ ((hnext t ht).1 results hr) hQ,
        fun m hm => hX m t ((hnext t ht).2 m hm)⟩
  | attempt body next _ ih =>
      obtain ⟨P, Y, hbody, hnext⟩ := h
      exact ⟨P, Y, hbody, fun t => ⟨fun b hb => ih _ ((hnext t).1 b hb) hQ,
        fun m hm => ih _ ((hnext t).2 m hm) hQ⟩⟩
  | own started body next _ ih =>
      obtain ⟨hr, P, Y, hbody, hnext⟩ := h
      exact ⟨hr, P, Y, hbody, fun t => ⟨fun b hb => ih _ ((hnext t).1 b hb) hQ,
        fun m hm => ih _ ((hnext t).2 m hm) hQ⟩⟩

/-- What the first of two processes ensures is what the second begins with. -/
theorem bind {p : Proc E α} {f : α → Proc E β} {Q : β → S → Prop}
    (h : Ensures R r p (fun a s => Ensures R r (f a) Q X s) X s) :
    Ensures R r (p.bind f) Q X s := by
  induction p generalizing s with
  | done a => exact h s (Rules.Meanwhile.refl s)
  | panic m => exact h
  | ask c next ih =>
      intro t ht
      obtain ⟨hperm, hnext⟩ := h t ht
      exact ⟨hperm, fun b t' hb => ih b (hnext b t' hb)⟩
  | wait d stop next ih =>
      intro t ht
      obtain ⟨htrue, hstop⟩ := h t ht
      refine ⟨ih true htrue, fun c hc => ?_⟩
      exact ⟨(hstop c hc).1, fun t' hb => ih false ((hstop c hc).2 t' hb)⟩
  | limited d stop body next _ ih =>
      obtain ⟨P, Y, hbody, hnext⟩ := h
      refine ⟨P, Y, hbody, fun t ht => ?_⟩
      obtain ⟨hdone, hpanic, hlate, hstop⟩ := hnext t ht
      refine ⟨fun b hb => ih _ (hdone b hb), hpanic, ih _ hlate, fun c hc => ?_⟩
      exact ⟨(hstop c hc).1, fun t' hb => ih _ ((hstop c hc).2 t' hb)⟩
  | all n parts next _ ih =>
      obtain ⟨P, Y, hparts, hnext⟩ := h
      exact ⟨P, Y, hparts, fun t ht =>
        ⟨fun results hr => ih _ ((hnext t ht).1 results hr), (hnext t ht).2⟩⟩
  | attempt body next _ ih =>
      obtain ⟨P, Y, hbody, hnext⟩ := h
      exact ⟨P, Y, hbody, fun t =>
        ⟨fun b hb => ih _ ((hnext t).1 b hb), fun m hm => ih _ ((hnext t).2 m hm)⟩⟩
  | own started body next _ ih =>
      obtain ⟨hr, P, Y, hbody, hnext⟩ := h
      exact ⟨hr, P, Y, hbody, fun t =>
        ⟨fun b hb => ih _ ((hnext t).1 b hb), fun m hm => ih _ ((hnext t).2 m hm)⟩⟩

theorem andThen {p : Proc E α} {f : α → Proc E β} {Q : α → S → Prop} {Z : β → S → Prop}
    (hp : Ensures R r p Q X s) (hf : ∀ a t, Q a t → Ensures R r (f a) Z X t) :
    Ensures R r (p.bind f) Z X s :=
  bind (hp.mono hf fun _ _ h => h)

/-- Several processes side by side ensure of all results what each ensures of its own. -/
theorem sideBySide {parts : List (Proc E α)} {P : α → S → Prop} {Q : List α → S → Prop}
    {Y : String → S → Prop} (hparts : ∀ p ∈ parts, Ensures R r.part p P Y s)
    (hQ : ∀ results t, R.Meanwhile r s t → (∀ a ∈ results, P a t) → Q results t)
    (hX : ∀ m t, R.Meanwhile r s t → Y m t → X m t)
    (hP : ∀ a, R.Stable r (P a)) : Ensures R r (Proc.sideBySide parts) Q X s := by
  refine ⟨fun _ => P, Y, fun i => hparts _ (parts.get_mem i), fun t ht => ⟨?_, fun m => hX m t ht⟩⟩
  intro results hresults t' ht'
  refine hQ _ t' (ht.trans ht') fun a ha => ?_
  obtain ⟨i, rfl⟩ := List.mem_ofFn.mp ha
  exact (hP _).meanwhile ht' (hresults i)

/-- Where guests may make every call, every process keeps to the rules as a guest. -/
theorem of_guest (hR : ∀ (β : Type) (c : E β) s, R.permits .guest β c s) (p : Proc E α) (s : S) :
    Ensures R .guest p (fun _ _ => True) (fun _ _ => True) s :=
  (makesOnly_true p).ensures (fun β c s _ => hR β c s) s

theorem void {p : Proc E α} (h : Ensures R r p Q X s) :
    Ensures R r p.void (fun _ _ => True) (fun _ _ => True) s :=
  bind (h.mono (fun _ _ _ _ _ => trivial) fun _ _ _ => trivial)

theorem startedTasks {p : Proc E α} (hr : r ≠ .owner) (h : Ensures R r p Q X s) :
    ∀ t ∈ p.startedTasks, Ensures R .guest t (fun _ _ => True) (fun _ _ => True) s := by
  induction p generalizing r X with
  | limited d stop body next ihBody _ =>
      obtain ⟨P, Y, hbody, -⟩ := h
      simpa only [Proc.startedTasks] using ihBody (by decide) hbody
  | attempt body next ihBody _ =>
      obtain ⟨P, Y, hbody, -⟩ := h
      simpa only [Proc.startedTasks] using ihBody hr hbody
  | all n parts next ihParts _ =>
      obtain ⟨P, Y, hparts, -⟩ := h
      intro t ht
      simp only [Proc.startedTasks, List.mem_flatMap] at ht
      obtain ⟨i, -, hi⟩ := ht
      exact ihParts i (Role.part_ne_owner r) (hparts i) t hi
  | own started body next _ _ =>
      obtain ⟨howns, P, Y, hbody, -⟩ := h
      obtain rfl := howns.resolve_left hr
      cases started with
      | false => simp [Proc.startedTasks]
      | true =>
          intro t ht
          rw [Proc.startedTasks, List.mem_singleton] at ht
          exact ht ▸ hbody.void
  | done => simp [Proc.startedTasks]
  | panic => simp [Proc.startedTasks]
  | ask => simp [Proc.startedTasks]
  | wait => simp [Proc.startedTasks]

/-- A step keeps what a process ensures, changes the state only by calls that may be made, and
leaves guests behind. -/
theorem step {p p' : Proc E α} {left : List (Proc E Unit)}
    (hstep : Step R.answers r p s left p' s') (h : Ensures R r p Q X s) :
    Ensures R r p' Q X s' ∧ R.Moved r s s' ∧
      ∀ t ∈ left, Ensures R .guest t (fun _ _ => True) (fun _ _ => True) s' := by
  induction hstep generalizing X with
  | @ask r _ _ c next s s' b hb =>
      obtain ⟨hperm, hnext⟩ := h s (.refl s)
      exact ⟨hnext b s' hb, .of_moves ⟨_, c, b, hperm, hb⟩, by simp⟩
  | begun d' => exact ⟨h, .refl, by simp⟩
  | elapsed => exact ⟨(h _ (.refl _)).1, .refl, by simp⟩
  | @stopped r _ d c next s s' hb =>
      obtain ⟨hperm, hnext⟩ := (h s (.refl s)).2 c rfl
      exact ⟨hnext s' hb, .of_part ⟨_, c, true, hperm, hb⟩, by simp⟩
  | @notStopped r _ d c next s s' hb =>
      obtain ⟨hperm, -⟩ := (h s (.refl s)).2 c rfl
      have hmoves : R.Moves r.part s s' := ⟨_, c, false, hperm, hb⟩
      exact ⟨h.later (.of_moves (Role.meets_part r) hmoves), .of_part hmoves, by simp⟩
  | limited _ ih =>
      obtain ⟨P, Y, hbody, hnext⟩ := h
      obtain ⟨hbody', hmoved, hleft⟩ := ih hbody
      refine ⟨⟨P, Y, hbody', fun t ht => hnext t (.trans (hmoved.meanwhile ?_) ht)⟩, ?_, hleft⟩
      · rintro other (rfl | rfl | rfl) <;> exact Role.meets_guest _
      · exact hmoved.mono (by rintro other (rfl | rfl | rfl) <;> exact .inr (.inr rfl))
  | limitBegun d' => exact ⟨h, .refl, by simp⟩
  | limitDone =>
      obtain ⟨P, Y, hbody, hnext⟩ := h
      exact ⟨(hnext _ (.refl _)).1 _ (hbody _ (.refl _)), .refl, by simp⟩
  | limitPanic =>
      obtain ⟨P, Y, hbody, hnext⟩ := h
      exact ⟨fun t ht =>
          (hnext t ht).2.1 _ (hbody t (ht.mono fun other _ => Role.guest_meets other)),
        .refl, by simp⟩
  | limitElapsed =>
      obtain ⟨P, Y, hbody, hnext⟩ := h
      exact ⟨(hnext _ (.refl _)).2.2.1, .refl, hbody.startedTasks (by decide)⟩
  | @limitStopped r _ _ d c body next s s' hb =>
      obtain ⟨P, Y, hbody, hnext⟩ := h
      obtain ⟨hperm, hstop⟩ := (hnext s (.refl s)).2.2.2 c rfl
      have hmoves : R.Moves r.part s s' := ⟨_, c, true, hperm, hb⟩
      exact ⟨hstop s' hb, .of_part hmoves,
        (hbody.later (.of_moves (Role.guest_meets _) hmoves)).startedTasks (by decide)⟩
  | @limitNotStopped r _ _ d c body next s s' hb =>
      have hperm := (h.choose_spec.choose_spec.2 s (.refl s)).2.2.2 c rfl
      have hmoves : R.Moves r.part s s' := ⟨_, c, false, hperm.1, hb⟩
      exact ⟨h.later (.of_moves (Role.meets_part r) hmoves), .of_part hmoves, by simp⟩
  | @part r _ _ n parts next s s' left q i _ ih =>
      obtain ⟨P, Y, hparts, hnext⟩ := h
      obtain ⟨hq, hmoved, hleft⟩ := ih (hparts i)
      have hmeets : ∀ other, Rules.Under r.part other → r.Meets other := by
        rintro other (rfl | rfl | rfl)
        · exact Role.meets_part r
        · rw [Role.part_part]
          exact Role.meets_part r
        · exact Role.meets_guest r
      have hlater : R.Meanwhile r s s' := hmoved.meanwhile hmeets
      refine ⟨⟨P, Y, fun j => ?_, fun t ht => hnext t (hlater.trans ht)⟩, ?_, hleft⟩
      · by_cases hj : j = i
        · subst hj
          rwa [Function.update_self]
        · rw [Function.update_of_ne hj]
          exact (hparts j).later (by rwa [Rules.meanwhile_part])
      · exact hmoved.mono (by rintro other (rfl | rfl | rfl) <;> simp [Rules.Under])
  | @partsDone r _ _ n parts next s results hdone =>
      obtain ⟨P, Y, hparts, hnext⟩ := h
      refine ⟨(hnext s (.refl s)).1 results fun i => ?_, .refl, by simp⟩
      have hi := hparts i
      rw [hdone i] at hi
      exact hi s (.refl s)
  | @partPanic r _ _ n parts next s m i hpanic =>
      obtain ⟨P, Y, hparts, hnext⟩ := h
      refine ⟨fun t ht => (hnext t ht).2 m ?_, .refl, fun t ht => ?_⟩
      · have hi := hparts i
        rw [hpanic] at hi
        exact hi t (by rwa [Rules.meanwhile_part])
      · obtain ⟨j, -, hj⟩ := List.mem_flatMap.mp ht
        exact (hparts j).startedTasks (Role.part_ne_owner r) t hj
  | attempt _ ih =>
      obtain ⟨P, Y, hbody, hnext⟩ := h
      obtain ⟨hbody', hmoved, hleft⟩ := ih hbody
      exact ⟨⟨P, Y, hbody', hnext⟩, hmoved, hleft⟩
  | attemptDone =>
      obtain ⟨P, Y, hbody, hnext⟩ := h
      exact ⟨(hnext _).1 _ (hbody _ (.refl _)), .refl, by simp⟩
  | attemptPanic =>
      obtain ⟨P, Y, hbody, hnext⟩ := h
      exact ⟨(hnext _).2 _ (hbody _ (.refl _)), .refl, by simp⟩
  | ownStarted => exact ⟨h, .refl, by simp⟩
  | own _ ih =>
      obtain ⟨hr, P, Y, hbody, hnext⟩ := h
      obtain ⟨hbody', hmoved, hleft⟩ := ih hbody
      exact ⟨⟨hr, P, Y, hbody', hnext⟩, hmoved, hleft⟩
  | ownDone =>
      obtain ⟨-, P, Y, hbody, hnext⟩ := h
      exact ⟨(hnext _).1 _ (hbody _ (.refl _)), .refl, by simp⟩
  | ownPanic =>
      obtain ⟨-, P, Y, hbody, hnext⟩ := h
      exact ⟨(hnext _).2 _ (hbody _ (.refl _)), .refl, by simp⟩

end Ensures

/-! ### Where a process stands -/

/-- A process goes on inside another in the name of that one: it is that process, a part of it, or
the body of an attempt or of a task.  What runs under a limit is not meant. -/
inductive Inside : {α β : Type} → Proc E α → Proc E β → Prop where
  | here {α : Type} (p : Proc E α) : Inside p p
  | part {α β γ : Type} {q : Proc E α} {n : Nat} {parts : Fin n → Proc E β}
      {next : (Fin n → β) → Proc E γ} (i : Fin n) :
      Inside q (parts i) → Inside q (.all n parts next)
  | attempt {α β γ : Type} {q : Proc E α} {body : Proc E β} {next : Except String β → Proc E γ} :
      Inside q body → Inside q (.attempt body next)
  | own {α β γ : Type} {q : Proc E α} {body : Proc E β} {next : Except String β → Proc E γ} :
      Inside q body → Inside q (.own true body next)

/-- What goes on inside a process keeps to the rules, in its role or in that of its parts. -/
theorem Inside.ensures {q : Proc E α} {p : Proc E β} (h : Inside q p) {r : Role}
    {Q : β → S → Prop} {X : String → S → Prop} (hp : Ensures R r p Q X s) :
    ∃ t Q' X', (t = r ∨ t = r.part) ∧ Ensures R t q Q' X' s := by
  induction h generalizing r X with
  | here p => exact ⟨r, Q, X, .inl rfl, hp⟩
  | part i _ ih =>
      obtain ⟨P, Y, hparts, -⟩ := hp
      obtain ⟨t, Q', X', ht, hq⟩ := ih (hparts i)
      exact ⟨t, Q', X', .inr (by rcases ht with rfl | rfl <;> simp), hq⟩
  | attempt _ ih =>
      obtain ⟨P, Y, hbody, -⟩ := hp
      exact ih hbody
  | own _ ih =>
      obtain ⟨-, P, Y, hbody, -⟩ := hp
      exact ih hbody

end Proc

/-! ### Pools -/

namespace Pool

variable {E : Type → Type 1} {S : Type u} {α ρ : Type} {R : Rules E S}
  {opens : S → Proc E ρ → Prop} {Q : α → S → Prop} {X : String → S → Prop}
  {Z : ρ → S → Prop} {a b : Pool E S α ρ}

/-- All processes of a pool ensure what is expected of them. -/
structure Sound (R : Rules E S) (Q : α → S → Prop) (X : String → S → Prop) (Z : ρ → S → Prop)
    (a : Pool E S α ρ) : Prop where
  main : a.main.Ensures R .owner Q X a.state
  tasks : ∀ t ∈ a.tasks, t.Ensures R .guest (fun _ _ => True) (fun _ _ => True) a.state
  requests : ∀ q ∈ a.requests, q.Ensures R .request Z (fun _ _ => True) a.state

/-- The state of a pool after a step: as it was, or changed by a call that may be made. -/
def Moved (R : Rules E S) (a b : Pool E S α ρ) : Prop :=
  b.state = a.state ∨ ∃ r, R.Moves r a.state b.state

theorem Moved.of_role {r : Role} (h : R.Moved r a.state b.state) : Moved R a b := by
  rcases h with h | ⟨other, -, hm⟩
  · exact .inl h
  · exact .inr ⟨other, hm⟩

theorem Move.moved {A : Role → (β : Type) → E β → S → β → S → Prop} (hmove : Move A opens a b) :
    Moved (Rules.lax A) a b := by
  rcases move_cases hmove with ⟨_, hstep, -⟩ | ⟨_, _, _, _, _, _, hstep, -⟩ |
    ⟨_, _, _, _, _, _, hstep, -⟩ | ⟨_, -, rfl⟩
  · exact .of_role hstep.changes
  · exact .of_role hstep.changes
  · exact .of_role hstep.changes
  · exact .inl rfl

theorem eq_or_mem_of_mem_replaced {γ : Type u} {c d e : γ} {before after : List γ}
    (h : c ∈ before ++ e :: after) : c = e ∨ c ∈ before ++ d :: after := by
  simp only [List.mem_append, List.mem_cons] at h ⊢
  rcases h with h | rfl | h
  · exact .inr (.inl h)
  · exact .inl rfl
  · exact .inr (.inr (.inr h))

theorem Sound.move (h : Sound R Q X Z a) (hmove : Move R.answers opens a b)
    (hopens : ∀ q, opens a.state q → q.Ensures R .request Z (fun _ _ => True) a.state) :
    Sound R Q X Z b ∧ Moved R a b := by
  cases hmove with
  | main hstep =>
      obtain ⟨hmain, hmoved, hleft⟩ := h.main.step hstep
      refine ⟨⟨hmain, fun t ht => ?_, fun q hq => ?_⟩, .of_role hmoved⟩
      · rcases List.mem_append.mp ht with ht | ht
        · exact (h.tasks t ht).later (hmoved.meanwhile fun other _ => Role.guest_meets other)
        · exact hleft t ht
      · exact (h.requests q hq).later (hmoved.meanwhile fun other _ => Role.request_meets other)
  | @task p t t' before after left requests s s' hstep =>
      obtain ⟨ht', hmoved, hleft⟩ := (h.tasks t (by simp)).step hstep
      refine ⟨⟨h.main.later (hmoved.meanwhile ?_), fun u hu => ?_, fun q hq => ?_⟩,
        .of_role hmoved⟩
      · rintro other (rfl | rfl | rfl) <;> exact Role.meets_guest _
      · rcases List.mem_append.mp hu with hu | hu
        · rcases eq_or_mem_of_mem_replaced hu with rfl | hu
          · exact ht'
          · exact (h.tasks u hu).later (hmoved.meanwhile fun other _ => Role.guest_meets other)
        · exact hleft u hu
      · exact (h.requests q hq).later (hmoved.meanwhile fun other _ => Role.request_meets other)
  | @request p tasks left q q' before after s s' hstep =>
      obtain ⟨hq', hmoved, hleft⟩ := (h.requests q (by simp)).step hstep
      refine ⟨⟨h.main.later (hmoved.meanwhile ?_), fun t ht => ?_, fun u hu => ?_⟩,
        .of_role hmoved⟩
      · rintro other (rfl | rfl | rfl) <;> simp [Role.Meets, Role.part]
      · rcases List.mem_append.mp ht with ht | ht
        · exact (h.tasks t ht).later (hmoved.meanwhile fun other _ => Role.guest_meets other)
        · exact hleft t ht
      · rcases eq_or_mem_of_mem_replaced hu with rfl | hu
        · exact hq'
        · exact (h.requests u hu).later (hmoved.meanwhile fun other _ => Role.request_meets other)
  | @opened p tasks requests q s hq =>
      refine ⟨⟨h.main, h.tasks, fun u hu => ?_⟩, .inl rfl⟩
      rcases List.mem_append.mp hu with hu | hu
      · exact h.requests u hu
      · rw [List.mem_singleton] at hu
        exact hu ▸ hopens q hq

/-- What holds in a state and is kept by every call that may be made holds for the whole run of
a pool, and so does what its processes ensure. -/
theorem Sound.reaches {I : S → Prop} (h : Sound R Q X Z a) (hI : I a.state)
    (hreach : Reaches R.answers opens a b)
    (hkeep : ∀ r s s', R.Moves r s s' → I s → I s')
    (hopens : ∀ s q, I s → opens s q → q.Ensures R .request Z (fun _ _ => True) s) :
    Sound R Q X Z b ∧ I b.state := by
  induction hreach with
  | refl => exact ⟨h, hI⟩
  | tail _ hmove ih =>
      obtain ⟨hsound, hinv⟩ := ih
      obtain ⟨hsound', hmoved⟩ := hsound.move hmove fun q hq => hopens _ q hinv hq
      refine ⟨hsound', ?_⟩
      rcases hmoved with heq | ⟨r, hm⟩
      · rwa [heq]
      · exact hkeep r _ _ hm hinv

end Pool

end Workflow
