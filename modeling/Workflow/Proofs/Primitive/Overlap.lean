import Workflow.Proofs.Primitive.Cache

/-!
# Lookups that overlap

Any number of lookups go on at once in one process.  Each asks the cache, then the store, and then
keeps what it read; between two of these steps the others go on, rows are changed, and primitives
are forgotten.  What a lookup has read but not yet kept is in its hand, and to forget a primitive
does not take it from there.  So the next lookups give what the store has held since, or what was
in some hand when the primitive was forgotten.
-/

namespace Workflow

open Proc

variable {H : Type}

namespace Proc

variable {E : Type → Type 1} {S α β : Type} {A : Role → (β : Type) → E β → S → β → S → Prop}
  {r : Role} {s t : S} {q : Proc E α} {left : List (Proc E Unit)}

theorem step_done {b : α} : ¬Step A r (.done b) s left q t := by
  intro h
  cases h

theorem step_ask {c : E β} {next : β → Proc E α} :
    Step A r (.ask c next) s left q t ↔
      left = [] ∧ ∃ reply, A r β c s reply t ∧ q = next reply := by
  constructor
  · intro h
    cases h with
    | ask hanswer => exact ⟨rfl, _, hanswer, rfl⟩
  · rintro ⟨rfl, reply, hanswer, rfl⟩
    exact .ask hanswer

end Proc

namespace Adapter

variable {a : Adapter H} {r : Role} {s t : Scene} {reference : PrimitiveRef} {id : Uuid}

/-! ### The steps of a lookup -/

/-- What is left of a lookup that has read a primitive. -/
def keeping (p : Primitive) : Proc (Call H) (Except PrimitiveError Primitive) :=
  .askHere (.remember p) fun _ => .done (.ok p)

/-- How far a lookup has come: it is to ask the cache, it is to ask the store, it has read what it
is to keep, or it has its result. -/
inductive Stage where
  | fresh (reference : PrimitiveRef)
  | asking (reference : PrimitiveRef)
  | inHand (p : Primitive)
  | ended (result : Except PrimitiveError Primitive)

namespace Stage

def rest (a : Adapter H) : Stage → Proc (Call H) (Except PrimitiveError Primitive)
  | .fresh reference => a.resolve reference
  | .asking reference => .askStore reference.find (a.found reference)
  | .inHand p => keeping p
  | .ended result => .done result

def ofCached (reference : PrimitiveRef) : Option Primitive → Stage
  | some p => .ended (.ok p)
  | none => .asking reference

/-- Where a lookup is that was answered by the store: what cannot be read is not kept. -/
def ofRead : Except PrimitiveError Primitive → Stage
  | .error e => .ended (.error e)
  | .ok p => .inHand p

/-- The next step of a lookup, and the scene after it. -/
def next (a : Adapter H) (s : Scene) : Stage → Option (Stage × Scene)
  | .fresh reference =>
    some (ofCached reference (s.here.cache.find? fun p => reference.fits p.id p.name), s)
  | .asking reference => some (ofRead (a.direct s.memory.primitives reference), asked s)
  | .inHand p => some (.ended (.ok p), kept (.ok p) s)
  | .ended _ => none

theorem resolve_rest :
    a.resolve reference =
      .askHere reference.cached fun cached => (ofCached reference cached).rest a := by
  rw [resolve_eq]
  refine congrArg (Proc.askHere _) (funext fun cached => ?_)
  cases cached <;> rfl

theorem found_eq {row : Option PrimitiveRow} :
    a.found reference (.ok row) = (ofRead (a.reading reference row)).rest a := by
  cases row with
  | none => rfl
  | some row =>
      simp only [found, remember, reading]
      cases Primitive.ofRow row a.defaultTimeout <;> rfl

/-- A lookup has one step to take at each stage, and none when it is over. -/
theorem step_iff {stage : Stage} {q : Proc (Call H) (Except PrimitiveError Primitive)}
    {left : List (Proc (Call H) Unit)} :
    Step Scene.Answers r (stage.rest a) s left q t ↔
      left = [] ∧ ∃ stage', stage.next a s = some (stage', t) ∧ q = stage'.rest a := by
  cases stage with
  | fresh reference =>
      rw [rest, resolve_rest, askHere, step_ask]
      simp only [answers_cached, next, Option.some.injEq, Prod.mk.injEq, and_assoc,
        exists_eq_left, exists_eq_left', eq_comm (a := s)]
  | asking reference =>
      rw [rest, askStore, step_ask]
      simp only [answers_find, next, direct, Option.some.injEq, Prod.mk.injEq, and_assoc,
        exists_eq_left, exists_eq_left', found_eq, eq_comm (a := asked s)]
  | inHand p =>
      have hn : (LocalCall.remember p).note? = none := rfl
      rw [rest, keeping, askHere, step_ask]
      simp only [Scene.answers_here hn, next, Option.some.injEq, Prod.mk.injEq, and_assoc,
        exists_const, true_and, exists_eq_left', eq_comm (a := kept (.ok p) s)]
      rfl
  | ended result => simp [rest, step_done, next]

theorem eq_ended {stage : Stage} {result : Except PrimitiveError Primitive}
    (h : stage.rest a = .done result) : stage = .ended result := by
  cases stage with
  | fresh reference =>
      rw [rest, resolve_rest] at h
      cases h
  | asking => cases h
  | inHand => cases h
  | ended =>
      cases h
      rfl

def togo : Stage → ℕ
  | .fresh _ => 3
  | .asking _ => 2
  | .inHand _ => 1
  | .ended _ => 0

theorem togo_le (stage : Stage) : stage.togo ≤ 3 := by
  cases stage <;> simp [togo]

theorem ended_or_next (a : Adapter H) (stage : Stage) (s : Scene) :
    (∃ result, stage = .ended result) ∨
      ∃ stage' t, stage.next a s = some (stage', t) ∧ stage'.togo < stage.togo := by
  cases stage with
  | fresh reference =>
      refine .inr ⟨_, _, rfl, ?_⟩
      cases s.here.cache.find? fun p => reference.fits p.id p.name <;> simp [ofCached, togo]
  | asking reference =>
      refine .inr ⟨_, _, rfl, ?_⟩
      cases a.direct s.memory.primitives reference <;> simp [ofRead, togo]
  | inHand p => exact .inr ⟨_, _, rfl, by simp [togo]⟩
  | ended result => exact .inl ⟨result, rfl⟩

end Stage

/-! ### Lookups at once -/

/-- A scene, and the lookups that were begun in it, each with what is left of it. -/
structure Traffic (H : Type) : Type 1 where
  scene : Scene
  lookups : List (PrimitiveRef × Proc (Call H) (Except PrimitiveError Primitive))

/-- What happens next: a lookup is begun, one of them takes a step, a primitive or all of them are
forgotten, or the rows of the store become others. -/
inductive Turn where
  | begin (reference : PrimitiveRef)
  | step (n : ℕ)
  | invalidate (id : Uuid)
  | clear
  | change (rows : List PrimitiveRow)

namespace Traffic

def rows (w : Traffic H) : List PrimitiveRow := w.scene.memory.primitives

/-- A lookup has read a primitive, and is about to keep it. -/
def InHand (w : Traffic H) (p : Primitive) : Prop :=
  ∃ reference, (reference, keeping p) ∈ w.lookups

end Traffic

/-- What may come of a turn.  A lookup may find the cache in any order, and one that nobody waits
for any more takes no more steps. -/
inductive Takes (a : Adapter H) : Traffic H → Turn → Traffic H → Prop where
  | begin {s : Scene} {lookups : List _} (reference : PrimitiveRef) :
      Takes a ⟨s, lookups⟩ (.begin reference) ⟨s, lookups ++ [(reference, a.resolve reference)]⟩
  | step {s t : Scene} {lookups : List _} {n : ℕ} {reference : PrimitiveRef} {r : Role}
      {p q : Proc (Call H) (Except PrimitiveError Primitive)} {left : List (Proc (Call H) Unit)}
      {cache : List Primitive} :
      lookups[n]? = some (reference, p) → cache.Perm s.here.cache →
        Step Scene.Answers r p (recached (fun _ => cache) s) left q t →
          Takes a ⟨s, lookups⟩ (.step n) ⟨t, lookups.set n (reference, q)⟩
  | invalidate {s t : Scene} {lookups : List _} {id : Uuid} {r : Role} :
      Steps Scene.Answers r (invalidate id : Proc (Call H) Unit) s [] (.done ()) t →
        Takes a ⟨s, lookups⟩ (.invalidate id) ⟨t, lookups⟩
  | clear {s t : Scene} {lookups : List _} {r : Role} :
      Steps Scene.Answers r (clear : Proc (Call H) Unit) s [] (.done ()) t →
        Takes a ⟨s, lookups⟩ .clear ⟨t, lookups⟩
  | change {s : Scene} {lookups : List _} (rows : List PrimitiveRow) :
      Takes a ⟨s, lookups⟩ (.change rows) ⟨stored rows s, lookups⟩

inductive Comes (a : Adapter H) : Traffic H → List Turn → Traffic H → Prop where
  | nil {w : Traffic H} : Comes a w [] w
  | cons {w v w' : Traffic H} {turn : Turn} {rest : List Turn} :
      Takes a w turn v → Comes a v rest w' → Comes a w (turn :: rest) w'

section

variable {w v w' : Traffic H} {turn : Turn} {turns : List Turn} {n m : ℕ}
  {Q : Except PrimitiveError Primitive → Prop} {p : Primitive} {stage stage' : Stage}

theorem Comes.append {more : List Turn} (h : Comes a w turns v) (hmore : Comes a v more w') :
    Comes a w (turns ++ more) w' := by
  induction h with
  | nil => exact hmore
  | cons hturn _ ih => exact .cons hturn (ih hmore)

theorem takes_step {lookups : List _} (hnext : stage.next a s = some (stage', t))
    (hn : lookups[n]? = some (reference, stage.rest a)) :
    Takes a ⟨s, lookups⟩ (.step n) ⟨t, lookups.set n (reference, stage'.rest a)⟩ :=
  .step (r := .branch) hn (.refl _) (Stage.step_iff.mpr ⟨rfl, stage', hnext, rfl⟩)

/-- A lookup comes to its end by its own steps. -/
theorem comes_ended (hn : w.lookups[n]? = some (reference, stage.rest a)) :
    ∃ k ≤ stage.togo, ∃ w' result, Comes a w (List.replicate k (.step n)) w' ∧
      w'.lookups[n]? = some (reference, .done result) := by
  induction hk : stage.togo using Nat.strong_induction_on generalizing stage w with
  | _ k ih =>
      rcases stage.ended_or_next a w.scene with ⟨result, rfl⟩ | ⟨stage', t, hnext, hlt⟩
      · exact ⟨0, Nat.zero_le _, w, result, .nil, hn⟩
      · have hlength : n < w.lookups.length := (List.getElem?_eq_some_iff.mp hn).1
        obtain ⟨j, hj, w', result, hcomes, hresult⟩ :=
          ih stage'.togo (hk ▸ hlt) (w := ⟨t, w.lookups.set n (reference, stage'.rest a)⟩)
            (List.getElem?_set_self hlength) rfl
        exact ⟨j + 1, by omega, w', result, .cons (takes_step hnext hn) hcomes, hresult⟩

/-! ### What later lookups give -/

/-- The rows that the store comes to hold in a turn. -/
def Turn.rows? : Turn → Option (List PrimitiveRow)
  | .change rows => some rows
  | _ => none

/-- All rows that the store holds at some time from now on. -/
def held (w : Traffic H) (turns : List Turn) : List (List PrimitiveRow) :=
  w.rows :: turns.filterMap Turn.rows?

/-- Whether a result is what rows tell of an identifier. -/
def Tells (a : Adapter H) (rows : List PrimitiveRow) (id : Uuid) :
    Except PrimitiveError Primitive → Prop
  | .ok p => ∃ row ∈ rows, row.id = id ∧ Primitive.ofRow row a.defaultTimeout = .ok p
  | .error e => a.direct rows (.id id) = .error e

/-- A primitive that is forgotten now is forgotten for good: each lookup of it that is begun later
comes to an end, and its result is told by rows that the store holds now or later. -/
structure Effective (a : Adapter H) (id : Uuid) (w : Traffic H) : Prop where
  ends {turns : List Turn} {w' : Traffic H} (h : Comes a w (.invalidate id :: turns) w') {n : ℕ}
    {q : Proc (Call H) (Except PrimitiveError Primitive)} (hn : w.lookups.length ≤ n)
    (hq : w'.lookups[n]? = some (.id id, q)) :
    ∃ k ≤ 3, ∃ v result, Comes a w' (List.replicate k (.step n)) v ∧
      v.lookups[n]? = some (.id id, .done result)
  tells {turns : List Turn} {w' : Traffic H} (h : Comes a w (.invalidate id :: turns) w') {n : ℕ}
    {result : Except PrimitiveError Primitive} (hn : w.lookups.length ≤ n)
    (hresult : w'.lookups[n]? = some (.id id, .done result)) :
    ∃ rows ∈ held w turns, a.Tells rows id result

/-- A primitive that is read was asked for, and there is a row for it. -/
theorem fits_tells_of_direct {rows : List PrimitiveRow} (h : a.direct rows reference = .ok p) :
    reference.fits p.id p.name = true ∧ a.Tells rows p.id (.ok p) := by
  cases hrow : reference.row? rows with
  | none => simp [direct, hrow, reading] at h
  | some row =>
      rw [direct, hrow] at h
      obtain ⟨hid, hname⟩ := Primitive.ofRow_eq_ok h
      refine ⟨?_, row, PrimitiveRef.mem_of_row? hrow, hid.symm, h⟩
      rw [hid, hname]
      exact PrimitiveRef.fits_of_row? hrow

/-- All that a lookup has to do with an identifier is told: the primitive in its hand, and its
result if it counts. -/
def Stage.Told (id : Uuid) (Q : Except PrimitiveError Primitive → Prop) (reference : PrimitiveRef)
    (counts : Prop) : Stage → Prop
  | .fresh wanted => wanted = reference
  | .asking wanted => wanted = reference
  | .inHand p => reference.fits p.id p.name = true ∧ (p.id = id → Q (.ok p))
  | .ended result => counts → reference = .id id → Q result

def CacheTold (id : Uuid) (Q : Except PrimitiveError Primitive → Prop) (s : Scene) : Prop :=
  ∀ p ∈ s.here.cache, p.id = id → Q (.ok p)

/-- A step of a lookup tells only what the cache or the store has told it. -/
theorem Stage.Told.next {counts : Prop} (h : stage.Told id Q reference counts)
    (hcache : CacheTold id Q s) (hrows : ∀ result, a.Tells s.memory.primitives id result → Q result)
    (hnext : stage.next a s = some (stage', t)) :
    stage'.Told id Q reference counts ∧ CacheTold id Q t ∧
      t.memory.primitives = s.memory.primitives := by
  cases stage with
  | fresh wanted =>
      obtain rfl : wanted = reference := h
      simp only [Stage.next, Option.some.injEq, Prod.mk.injEq] at hnext
      obtain ⟨rfl, rfl⟩ := hnext
      refine ⟨?_, hcache, rfl⟩
      cases hcached : s.here.cache.find? fun p => wanted.fits p.id p.name with
      | none => rfl
      | some p =>
          rintro - rfl
          have hid : p.id = id := by simpa [PrimitiveRef.fits] using List.find?_some hcached
          exact hcache p (List.mem_of_find?_eq_some hcached) hid
  | asking wanted =>
      obtain rfl : wanted = reference := h
      simp only [Stage.next, Option.some.injEq, Prod.mk.injEq] at hnext
      obtain ⟨rfl, rfl⟩ := hnext
      refine ⟨?_, hcache, rfl⟩
      cases hread : a.direct s.memory.primitives wanted with
      | error e =>
          rintro - rfl
          exact hrows _ hread
      | ok p =>
          obtain ⟨hfits, htells⟩ := fits_tells_of_direct hread
          refine ⟨hfits, ?_⟩
          rintro rfl
          exact hrows _ htells
  | inHand p =>
      obtain ⟨hfits, hp⟩ := h
      simp only [Stage.next, Option.some.injEq, Prod.mk.injEq] at hnext
      obtain ⟨rfl, rfl⟩ := hnext
      refine ⟨?_, ?_, rfl⟩
      · rintro - rfl
        exact hp (by simpa [PrimitiveRef.fits] using hfits)
      · intro q hq hid
        rcases mem_remember hq with rfl | hq
        · exact hp hid
        · exact hcache q hq hid
  | ended result => simp [Stage.next] at hnext

/-- All that the cache and the lookups have to do with an identifier is told.  Results count from
some lookup on. -/
structure Told (a : Adapter H) (id : Uuid) (Q : Except PrimitiveError Primitive → Prop) (m : ℕ)
    (w : Traffic H) : Prop where
  cache : CacheTold id Q w.scene
  lookups : ∀ n reference q, w.lookups[n]? = some (reference, q) →
    ∃ stage : Stage, q = stage.rest a ∧ stage.Told id Q reference (m ≤ n)

theorem Told.takes (hw : Told a id Q m w) (hrows : ∀ result, a.Tells w.rows id result → Q result)
    (h : Takes a w turn v) : Told a id Q m v ∧ v.rows ∈ held w [turn] := by
  cases h with
  | @begin s lookups reference =>
      refine ⟨⟨hw.cache, fun n reference' q hq => ?_⟩, List.mem_cons_self⟩
      rcases lt_or_ge n lookups.length with hlt | hge
      · exact hw.lookups n reference' q (by rwa [List.getElem?_append_left hlt] at hq)
      · rw [List.getElem?_append_right hge] at hq
        obtain ⟨rfl, rfl⟩ : reference' = reference ∧ q = a.resolve reference := by
          simpa using List.mem_of_getElem? hq
        exact ⟨.fresh reference', rfl, rfl⟩
  | @step s t lookups n reference r p q left cache hn horder hstep =>
      obtain ⟨stage, rfl, hstage⟩ := hw.lookups n reference p hn
      obtain ⟨-, stage', hnext, rfl⟩ := Stage.step_iff.mp hstep
      have hcache : CacheTold id Q (recached (fun _ => cache) s) :=
        fun p hp => hw.cache p (horder.subset hp)
      obtain ⟨hstage', hcache', hsame⟩ := hstage.next hcache hrows hnext
      refine ⟨⟨hcache', fun n' reference' q hq => ?_⟩, List.mem_cons.mpr (.inl hsame)⟩
      rcases eq_or_ne n n' with rfl | hne
      · rw [List.getElem?_set_self (List.getElem?_eq_some_iff.mp hn).1] at hq
        cases hq
        exact ⟨stage', rfl, hstage'⟩
      · exact hw.lookups n' reference' q (by rwa [List.getElem?_set_ne hne] at hq)
  | invalidate hsteps =>
      obtain rfl := (steps_forgetting rfl).mp hsteps
      exact ⟨⟨fun p hp => hw.cache p (List.mem_of_mem_filter hp), hw.lookups⟩, List.mem_cons_self⟩
  | clear hsteps =>
      obtain rfl := (steps_forgetting rfl).mp hsteps
      exact ⟨⟨fun p hp => absurd hp List.not_mem_nil, hw.lookups⟩, List.mem_cons_self⟩
  | change rows => exact ⟨⟨hw.cache, hw.lookups⟩, List.mem_cons_of_mem _ List.mem_cons_self⟩

theorem held_subset (h : v.rows ∈ held w [turn]) : held v turns ⊆ held w (turn :: turns) := by
  intro rows hrows
  have hturn : held w (turn :: turns) = held w [turn] ++ turns.filterMap Turn.rows? := by
    rw [held, held, ← List.singleton_append (l := turns), List.filterMap_append, List.cons_append]
  rw [hturn, List.mem_append]
  rcases List.mem_cons.mp hrows with rfl | hrows
  · exact .inl h
  · exact .inr hrows

theorem Told.comes (hw : Told a id Q m w)
    (hrows : ∀ rows ∈ held w turns, ∀ result, a.Tells rows id result → Q result)
    (h : Comes a w turns v) : Told a id Q m v := by
  induction h with
  | nil => exact hw
  | cons hturn _ ih =>
      obtain ⟨hv, hmem⟩ := hw.takes (hrows _ List.mem_cons_self) hturn
      exact ih hv fun rows hrow => hrows rows (held_subset hmem hrow)

theorem told_true (h : Comes a ⟨s, []⟩ turns w) (id : Uuid) : Told a id (fun _ => True) 0 w := by
  have hstart : Told a id (fun _ => True) 0 (⟨s, []⟩ : Traffic H) :=
    ⟨fun _ _ _ => trivial, fun n reference q hq => by simp at hq⟩
  exact hstart.comes (fun _ _ _ _ => trivial) h

/-- Once a primitive is forgotten, all is told if what is in some hand is. -/
theorem Told.invalidated (hw : Told a id (fun _ => True) 0 w) (h : Takes a w (.invalidate id) v)
    (hhand : ∀ p, w.InHand p → p.id = id → Q (.ok p)) :
    Told a id Q w.lookups.length v ∧ v.rows = w.rows := by
  cases h with
  | @invalidate s _ lookups _ _ hsteps =>
      obtain rfl := (steps_forgetting rfl).mp hsteps
      refine ⟨⟨fun p hp hid => ?_, fun n reference q hq => ?_⟩, rfl⟩
      -- Nothing is left in the cache, but what is in the hands is still there.
      · exact absurd hid (by simpa using List.of_mem_filter hp)
      · obtain ⟨stage, rfl, hstage⟩ := hw.lookups n reference q hq
        refine ⟨stage, rfl, ?_⟩
        cases stage with
        | fresh => exact hstage
        | asking => exact hstage
        | inHand p => exact ⟨hstage.1, hhand p ⟨reference, List.mem_of_getElem? hq⟩⟩
        | ended => exact fun hn => absurd (List.getElem?_eq_some_iff.mp hq).1 (by simpa using hn)

/-- What a later lookup gives is told by rows that the store has held since, or it was in some hand
when the primitive was forgotten. -/
theorem later_cases {before : List Turn} (hbefore : Comes a ⟨s, []⟩ before w)
    (h : Comes a w (.invalidate id :: turns) w') {result : Except PrimitiveError Primitive}
    (hn : w.lookups.length ≤ n) (hresult : w'.lookups[n]? = some (.id id, .done result)) :
    (∃ rows ∈ held w turns, a.Tells rows id result) ∨
      ∃ p, w.InHand p ∧ p.id = id ∧ result = .ok p := by
  cases h with
  | cons hturn hrest =>
      obtain ⟨hv, hrows⟩ := (told_true hbefore id).invalidated hturn
        (Q := fun result => (∃ rows ∈ held w turns, a.Tells rows id result) ∨
          ∃ p, w.InHand p ∧ p.id = id ∧ result = .ok p)
        fun p hp hid => .inr ⟨p, hp, hid, rfl⟩
      have hheld : held _ turns = held w turns := congrArg (· :: _) hrows
      have hw' := hv.comes (fun rows hrow _ htells => .inl ⟨rows, hheld ▸ hrow, htells⟩) hrest
      obtain ⟨stage, hstage, htold⟩ := hw'.lookups n _ _ hresult
      obtain rfl := Stage.eq_ended hstage.symm
      exact htold hn rfl

theorem find?_remember (p : Primitive) (cache : List Primitive) :
    ((Local.remember p cache).find? fun q => (PrimitiveRef.id p.id).fits q.id q.name) = some p := by
  have hnone : ((Local.forget p.id cache).find? fun q =>
      (PrimitiveRef.id p.id).fits q.id q.name) = none := by
    rw [List.find?_eq_none]
    intro q hq
    simpa [PrimitiveRef.fits] using List.of_mem_filter hq
  rw [Local.remember, List.find?_append, hnone, Option.none_or]
  exact List.find?_cons_of_pos (by simp [PrimitiveRef.fits])

/-- What is in some hand when it is forgotten may be kept at once, and be given to the next. -/
theorem exists_given (a : Adapter H) (hp : w.InHand p) :
    ∃ turns w', Comes a w (.invalidate p.id :: turns) w' ∧ held w turns = [w.rows] ∧
      w'.lookups[w.lookups.length]? = some (.id p.id, .done (.ok p)) := by
  obtain ⟨reference, hmem⟩ := hp
  obtain ⟨i, hi⟩ := List.mem_iff_getElem?.mp hmem
  -- It is forgotten, then kept by the lookup in whose hand it was, and then found by a new one.
  have hforgot : Takes a w (.invalidate p.id)
      ⟨recached (Local.forget p.id) w.scene, w.lookups⟩ :=
    .invalidate (r := .branch) ((steps_forgetting rfl).mpr rfl)
  let s := kept (.ok p) (recached (Local.forget p.id) w.scene)
  let lookups := w.lookups.set i (reference, .done (.ok p))
  have hlength : lookups.length = w.lookups.length := List.length_set
  have hkept : Takes a ⟨recached (Local.forget p.id) w.scene, w.lookups⟩ (.step i) ⟨s, lookups⟩ :=
    have hnext : (Stage.inHand p).next a (recached (Local.forget p.id) w.scene) =
      some (.ended (.ok p), s) := rfl
    takes_step hnext hi
  let more := lookups ++ [(.id p.id, a.resolve (.id p.id))]
  have hbegun : Takes a ⟨s, lookups⟩ (.begin (.id p.id)) ⟨s, more⟩ := .begin _
  have hgiven : Takes a ⟨s, more⟩ (.step w.lookups.length)
      ⟨s, more.set w.lookups.length (.id p.id, .done (.ok p))⟩ := by
    have hnext : (Stage.fresh (.id p.id)).next a s = some (.ended (.ok p), s) := by
      simp only [Stage.next, s, kept, find?_remember, Stage.ofCached]
    refine takes_step hnext ?_
    simp [more, hlength, Stage.rest]
  refine ⟨_, _, .cons hforgot (.cons hkept (.cons hbegun (.cons hgiven .nil))), rfl, ?_⟩
  exact List.getElem?_set_self (by simp [more, hlength])

/-- Any number of lookups go on at once, from any cache; each asks the cache, then the store, and
then keeps what it has read, and between these steps rows are changed and primitives are forgotten
in any order.  When a primitive is forgotten, all later lookups of it come to an end and give what
rows tell that the store held then or later, if and only if each lookup that has read this primitive
and not yet kept it has read what a row of the store tells at that moment. -/
theorem invalidation_effective_iff (a : Adapter H) {s : Scene} {before : List Turn} {w : Traffic H}
    (h : Comes a ⟨s, []⟩ before w) (id : Uuid) :
    Effective a id w ↔ ∀ p, w.InHand p → p.id = id → a.Tells w.rows id (.ok p) := by
  constructor
  · rintro heffective p hp rfl
    obtain ⟨turns, w', hcomes, hheld, hresult⟩ := exists_given a hp
    obtain ⟨rows, hrows, htells⟩ := heffective.tells hcomes le_rfl hresult
    rw [hheld, List.mem_singleton] at hrows
    rwa [hrows] at htells
  · intro hhand
    refine ⟨fun hcomes n q _ hq => ?_, fun hcomes n result hn hresult => ?_⟩
    · obtain ⟨stage, rfl, -⟩ := (told_true (h.append hcomes) id).lookups n _ q hq
      obtain ⟨k, hk, hover⟩ := comes_ended hq
      exact ⟨k, hk.trans stage.togo_le, hover⟩
    · rcases later_cases h hcomes hn hresult with htold | ⟨p, hp, hid, rfl⟩
      · exact htold
      · exact ⟨w.rows, List.mem_cons_self, hhand p hp hid⟩

end

def echoScene : Scene := ⟨Memory.empty.putPrimitive (echoOf 7 "echo"), .empty, []⟩

def disabledEcho : PrimitiveRow := { echoOf 7 "echo" with enabled := false }

/-- A primitive that is disabled after a lookup has read it and before it is kept.  Nothing comes of
it that it is forgotten then: later lookups may be given the primitive as it was. -/
theorem not_effective_disabled :
    ∃ w : Traffic Empty, Comes Setting.echoAdapter ⟨echoScene, []⟩
        [.begin (.id ⟨7⟩), .step 0, .step 0, .change [disabledEcho]] w ∧
      ¬Effective Setting.echoAdapter ⟨7⟩ w := by
  let w : Traffic Empty :=
    ⟨stored [disabledEcho] (asked echoScene), [(.id ⟨7⟩, keeping (echoRead 7 "echo"))]⟩
  have hcomes : Comes Setting.echoAdapter ⟨echoScene, []⟩
      [.begin (.id ⟨7⟩), .step 0, .step 0, .change [disabledEcho]] w := by
    have hmissed : (Stage.fresh (.id ⟨7⟩)).next Setting.echoAdapter echoScene =
      some (.asking (.id ⟨7⟩), echoScene) := rfl
    have hread : (Stage.asking (.id ⟨7⟩)).next Setting.echoAdapter echoScene =
      some (.inHand (echoRead 7 "echo"), asked echoScene) := rfl
    refine .cons (.begin _) (.cons (takes_step hmissed rfl) (.cons (takes_step hread rfl) ?_))
    exact .cons (.change _) .nil
  refine ⟨w, hcomes, fun heffective => ?_⟩
  have hhand := (invalidation_effective_iff Setting.echoAdapter hcomes ⟨7⟩).mp heffective
  obtain ⟨row, hrow, -, hread⟩ := hhand (echoRead 7 "echo") ⟨.id ⟨7⟩, List.mem_cons_self⟩ rfl
  obtain rfl := List.mem_singleton.mp hrow
  cases hread

end Adapter

end Workflow
