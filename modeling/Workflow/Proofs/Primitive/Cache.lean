import Workflow.Proofs.Process.Schedule
import Workflow.Proofs.Run.Setting

/-!
# The cache of primitives

Primitives are looked up, forgotten, and changed in the store, in any order.  The cache is keyed by
identifiers but also searched for names, and each search may see it in another order.  As long as
identifiers and names are unique in the store, and a primitive is forgotten as soon as its row was
changed, all that is kept was read from a row that is still there.  So nobody can tell a lookup
from one that goes to the store.
-/

namespace Workflow

open Proc

variable {H : Type}

/-! ### Steps of a process that only asks -/

namespace Proc

variable {E : Type → Type 1} {S α β : Type} {A : Role → (β : Type) → E β → S → β → S → Prop}
  {r : Role} {s s' : S} {a b : α} {left : List (Proc E Unit)}

theorem steps_done :
    Steps A r (.done a) s left (.done b) s' ↔ left = [] ∧ b = a ∧ s' = s := by
  constructor
  · intro h
    cases h with
    | refl => exact ⟨rfl, rfl, rfl⟩
    | head hstep => cases hstep
  · rintro ⟨rfl, rfl, rfl⟩
    exact .refl _ _

theorem steps_ask {c : E β} {next : β → Proc E α} :
    Steps A r (.ask c next) s left (.done a) s' ↔
      ∃ reply t, A r β c s reply t ∧ Steps A r (next reply) t left (.done a) s' := by
  constructor
  · intro h
    cases h with
    | head hstep hrest =>
        cases hstep with
        | ask hanswer => exact ⟨_, _, hanswer, hrest⟩
  · rintro ⟨reply, t, hanswer, hrest⟩
    exact .head (.ask hanswer) hrest

end Proc

/-! ### Answers to who looks up -/

namespace Scene

variable {r : Role} {β : Type} {s t : Scene}

/-- The process itself answers in one way only. -/
theorem answers_here {c : LocalCall β} {reply : β} (hn : c.note? = none) :
    Answers r β (.here c : Call H β) s reply t ↔
      reply = (Local.answer c s.here).1 ∧ t = { s with here := (Local.answer c s.here).2 } := by
  constructor
  · rintro ⟨hanswer, hmemory, hlog⟩
    refine ⟨by rw [hanswer], ?_⟩
    rw [hn, Option.toList_none, List.map_nil, List.append_nil] at hlog
    cases t
    simp_all
  · rintro ⟨rfl, rfl⟩
    exact ⟨rfl, rfl, by simp [hn]⟩

/-- A store without failures answers a question in one way only. -/
theorem answers_store {c : StoreCall β} {reply known : Except StoreError β} {m : Memory}
    (hanswer : ∀ fresh now, Memory.answer fresh now c s.memory = (known, m))
    (hn : c.note? known = none) :
    Answers r _ (.store c : Call H _) s reply t ↔
      reply = known ∧ t = { s with memory := m } := by
  constructor
  · rintro ⟨⟨fresh, now, -, hreply⟩, hhere, hlog⟩
    rw [hanswer, Prod.mk.injEq] at hreply
    obtain ⟨rfl, hmemory⟩ := hreply
    rw [hn, Option.toList_none, List.map_nil, List.append_nil] at hlog
    cases t
    simp_all
  · rintro ⟨rfl, rfl⟩
    obtain ⟨fresh, hfresh⟩ := Setting.exists_unused s
    exact ⟨⟨fresh, ⟨0, 0⟩, hfresh, hanswer fresh ⟨0, 0⟩⟩, rfl, by simp [hn]⟩

end Scene

/-! ### Lookups -/

namespace Adapter

variable {a : Adapter H} {r : Role} {s t : Scene} {reference : PrimitiveRef}
  {result : Except PrimitiveError Primitive}

/-- A scene after a primitive was read, if it could be read. -/
def kept (read : Except PrimitiveError Primitive) (s : Scene) : Scene :=
  match read with
  | .error _ => s
  | .ok p => { s with here := { s.here with cache := Local.remember p s.here.cache } }

/-- A scene after one more question for a primitive. -/
def asked (s : Scene) : Scene :=
  { s with memory := { s.memory with lookups := s.memory.lookups + 1 } }

/-- What a lookup gives, and the scene after it. -/
def lookup (a : Adapter H) (reference : PrimitiveRef) (s : Scene) :
    Except PrimitiveError Primitive × Scene :=
  match s.here.cache.find? fun p => reference.fits p.id p.name with
  | some p => (.ok p, s)
  | none =>
    (a.direct s.memory.primitives reference,
      kept (a.direct s.memory.primitives reference) (asked s))

theorem answers_cached {cached : Option Primitive} :
    Scene.Answers r _ (.here reference.cached : Call H _) s cached t ↔
      cached = (s.here.cache.find? fun p => reference.fits p.id p.name) ∧ t = s := by
  rw [Scene.answers_here PrimitiveRef.note?_cached, PrimitiveRef.answer_cached]

theorem answers_find {reply : Except StoreError (Option PrimitiveRow)} :
    Scene.Answers r _ (.store reference.find : Call H _) s reply t ↔
      reply = .ok (reference.row? s.memory.primitives) ∧ t = asked s :=
  Scene.answers_store (fun _ _ => PrimitiveRef.answer_find ..) (PrimitiveRef.note?_find _)

theorem steps_found {row : Option PrimitiveRow} :
    Steps Scene.Answers r (a.found reference (.ok row)) s [] (.done result) t ↔
      result = a.reading reference row ∧ t = kept result s := by
  cases row with
  | none =>
      simp only [found, reading, steps_done, true_and]
      refine and_congr_right fun hresult => ?_
      rw [hresult, kept]
  | some row =>
      simp only [found, remember, reading]
      cases hread : Primitive.ofRow row a.defaultTimeout with
      | error e =>
          simp only [steps_done, true_and]
          refine and_congr_right fun hresult => ?_
          rw [hresult, kept]
      | ok p =>
          have hn : (LocalCall.remember p).note? = none := rfl
          simp only [askHere, steps_ask, steps_done, true_and, Scene.answers_here hn]
          constructor
          · rintro ⟨-, _, rfl, rfl, rfl⟩
            exact ⟨rfl, rfl⟩
          · rintro ⟨rfl, rfl⟩
            exact ⟨(), _, rfl, rfl, rfl⟩

/-- A lookup always has a result, and this is the only one. -/
theorem steps_resolve :
    Steps Scene.Answers r (a.resolve reference) s [] (.done result) t ↔
      (result, t) = a.lookup reference s := by
  rw [resolve_eq]
  simp only [askHere, steps_ask, answers_cached, lookup]
  cases hcached : s.here.cache.find? fun p => reference.fits p.id p.name with
  | some p =>
      constructor
      · rintro ⟨_, _, ⟨rfl, rfl⟩, hrest⟩
        obtain ⟨-, rfl, rfl⟩ := steps_done.mp hrest
        rfl
      · intro h
        cases h
        exact ⟨_, _, ⟨rfl, rfl⟩, steps_done.mpr ⟨rfl, rfl, rfl⟩⟩
  | none =>
      constructor
      · rintro ⟨_, _, ⟨rfl, rfl⟩, hrest⟩
        obtain ⟨_, _, hanswer, hfound⟩ := steps_ask.mp hrest
        obtain ⟨rfl, rfl⟩ := answers_find.mp hanswer
        obtain ⟨rfl, rfl⟩ := steps_found.mp hfound
        rfl
      · intro h
        cases h
        refine ⟨_, _, ⟨rfl, rfl⟩, steps_ask.mpr ⟨_, _, answers_find.mpr ⟨rfl, rfl⟩, ?_⟩⟩
        exact steps_found.mpr ⟨rfl, rfl⟩

/-! ### What is kept was read from a row -/

/-- All that is kept was read from a row of the store. -/
def Faithful (a : Adapter H) (s : Scene) : Prop :=
  ∀ p ∈ s.here.cache,
    ∃ row ∈ s.memory.primitives, Primitive.ofRow row a.defaultTimeout = .ok p

/-- What is kept answers as the row does that it was read from. -/
theorem lookup_fst (hs : a.Faithful s) (hrows : PrimitiveRow.Distinct s.memory.primitives) :
    (a.lookup reference s).1 = a.direct s.memory.primitives reference := by
  rw [lookup]
  cases hcached : s.here.cache.find? fun p => reference.fits p.id p.name with
  | none => rfl
  | some p =>
      obtain ⟨row, hrow, hread⟩ := hs p (List.mem_of_find?_eq_some hcached)
      obtain ⟨hid, hname⟩ := Primitive.ofRow_eq_ok hread
      have hfits : reference.fits row.id row.name = true := by
        have hp := List.find?_some hcached
        rwa [hid, hname] at hp
      rw [direct, PrimitiveRef.row?_eq_some hrows hrow hfits]
      exact hread.symm

theorem mem_remember {p q : Primitive} {cache : List Primitive}
    (h : q ∈ Local.remember p cache) : q = p ∨ q ∈ cache := by
  rw [Local.remember, List.mem_append, List.mem_singleton] at h
  exact h.symm.imp_right fun hq => List.mem_of_mem_filter hq

theorem lookup_memory : (a.lookup reference s).2.memory.primitives = s.memory.primitives := by
  rw [lookup]
  cases s.here.cache.find? fun p => reference.fits p.id p.name with
  | some => rfl
  | none => cases hread : a.direct s.memory.primitives reference <;> simp [kept, asked]

theorem faithful_lookup (hs : a.Faithful s) : a.Faithful (a.lookup reference s).2 := by
  intro p hp
  rw [lookup_memory]
  rw [lookup] at hp
  cases hcached : s.here.cache.find? fun p => reference.fits p.id p.name with
  | some => exact hs p (by simpa [hcached] using hp)
  | none =>
      simp only [hcached] at hp
      cases hread : a.direct s.memory.primitives reference with
      | error => exact hs p (by simpa [hread, kept, asked] using hp)
      | ok q =>
          simp only [hread, kept, asked] at hp
          rcases mem_remember hp with rfl | hp
          · cases hrow : reference.row? s.memory.primitives with
            | none => simp [direct, hrow, reading] at hread
            | some row =>
                rw [direct, hrow] at hread
                exact ⟨row, PrimitiveRef.mem_of_row? hrow, hread⟩
          · exact hs p hp

/-- A scene in which the store has other rows of primitives. -/
def stored (rows : List PrimitiveRow) (s : Scene) : Scene :=
  { s with memory := { s.memory with primitives := rows } }

/-- A scene after something was done to the primitives that are kept. -/
def recached (f : List Primitive → List Primitive) (s : Scene) : Scene :=
  { s with here := { s.here with cache := f s.here.cache } }

/-- Rows of primitives of which at most the one of an identifier was changed, added or removed. -/
def SameBut (id : Uuid) (rows rows' : List PrimitiveRow) : Prop :=
  (rows'.filter fun row => row.id != id).Perm (rows.filter fun row => row.id != id)

theorem faithful_recached {f : List Primitive → List Primitive} (hs : a.Faithful s)
    (hf : f s.here.cache ⊆ s.here.cache) : a.Faithful (recached f s) :=
  fun p hp => hs p (hf hp)

/-- Once a primitive is forgotten, its row may have been changed. -/
theorem faithful_forget {id : Uuid} {rows : List PrimitiveRow} (hs : a.Faithful s)
    (hrows : SameBut id s.memory.primitives rows) :
    a.Faithful (recached (Local.forget id) (stored rows s)) := by
  intro p hp
  obtain ⟨hp, hne⟩ := List.mem_filter.mp hp
  obtain ⟨row, hrow, hread⟩ := hs p hp
  have hid : (row.id != id) = true := by rwa [← (Primitive.ofRow_eq_ok hread).1]
  have hkept : row ∈ rows.filter fun row => row.id != id :=
    hrows.mem_iff.mpr (List.mem_filter.mpr ⟨hrow, hid⟩)
  exact ⟨row, List.mem_of_mem_filter hkept, hread⟩

/-! ### Sequences of actions -/

/-- What is done with primitives: one is looked up, one or all are forgotten, or the rows of the
store become others because that of one identifier is changed, added or removed. -/
inductive Action where
  | look (reference : PrimitiveRef)
  | invalidate (id : Uuid)
  | clear
  | change (id : Uuid) (rows : List PrimitiveRow)

/-- Actions one after another, with the results of the lookups.  The order in which an action
finds what is kept depends on how many actions come after it. -/
inductive Course (a : Adapter H) (order : ℕ → List Primitive → List Primitive) :
    Scene → List Action → List (Except PrimitiveError Primitive) → Scene → Prop where
  | nil {s : Scene} : Course a order s [] [] s
  | look {s t s' : Scene} {reference : PrimitiveRef} {rest : List Action}
      {result : Except PrimitiveError Primitive}
      {results : List (Except PrimitiveError Primitive)} :
      Steps Scene.Answers .owner (a.resolve reference) (recached (order rest.length) s) []
          (.done result) t →
        Course a order t rest results s' →
          Course a order s (.look reference :: rest) (result :: results) s'
  | invalidate {s t s' : Scene} {id : Uuid} {rest : List Action}
      {results : List (Except PrimitiveError Primitive)} :
      Steps Scene.Answers .owner (invalidate id : Proc (Call H) Unit)
          (recached (order rest.length) s) [] (.done ()) t →
        Course a order t rest results s' → Course a order s (.invalidate id :: rest) results s'
  | clear {s t s' : Scene} {rest : List Action}
      {results : List (Except PrimitiveError Primitive)} :
      Steps Scene.Answers .owner (clear : Proc (Call H) Unit) (recached (order rest.length) s) []
          (.done ()) t →
        Course a order t rest results s' → Course a order s (.clear :: rest) results s'
  | change {s s' : Scene} {id : Uuid} {rows : List PrimitiveRow} {rest : List Action}
      {results : List (Except PrimitiveError Primitive)} :
      Course a order (stored rows s) rest results s' →
        Course a order s (.change id rows :: rest) results s'

/-- Actions by which identifiers and names of primitives stay unique in the store, and by which
each primitive whose row is changed is forgotten at once. -/
inductive Orderly : List PrimitiveRow → List Action → Prop where
  | nil {rows : List PrimitiveRow} : PrimitiveRow.Distinct rows → Orderly rows []
  | look {rows : List PrimitiveRow} {reference : PrimitiveRef} {rest : List Action} :
      Orderly rows rest → Orderly rows (.look reference :: rest)
  | invalidate {rows : List PrimitiveRow} {id : Uuid} {rest : List Action} :
      Orderly rows rest → Orderly rows (.invalidate id :: rest)
  | clear {rows : List PrimitiveRow} {rest : List Action} :
      Orderly rows rest → Orderly rows (.clear :: rest)
  | change {rows rows' : List PrimitiveRow} {id : Uuid} {rest : List Action} :
      PrimitiveRow.Distinct rows → SameBut id rows rows' → Orderly rows' rest →
        Orderly rows (.change id rows' :: .invalidate id :: rest)

theorem Orderly.distinct {rows : List PrimitiveRow} {actions : List Action}
    (h : Orderly rows actions) : PrimitiveRow.Distinct rows := by
  induction h with
  | nil h => exact h
  | look _ ih => exact ih
  | invalidate _ ih => exact ih
  | clear _ ih => exact ih
  | change h => exact h

/-- The results of the lookups if all of them go to the store. -/
def directly (a : Adapter H) :
    List PrimitiveRow → List Action → List (Except PrimitiveError Primitive)
  | _, [] => []
  | rows, .look reference :: rest => a.direct rows reference :: a.directly rows rest
  | _, .change _ rows :: rest => a.directly rows rest
  | rows, .invalidate _ :: rest => a.directly rows rest
  | rows, .clear :: rest => a.directly rows rest

section

variable {order : ℕ → List Primitive → List Primitive} {s' : Scene} {rest : List Action}
  {results : List (Except PrimitiveError Primitive)}

theorem course_nil : Course a order s [] results s' ↔ results = [] ∧ s' = s := by
  constructor
  · intro h
    cases h
    exact ⟨rfl, rfl⟩
  · rintro ⟨rfl, rfl⟩
    exact .nil

theorem course_look :
    Course a order s (.look reference :: rest) results s' ↔
      ∃ more, results = (a.lookup reference (recached (order rest.length) s)).1 :: more ∧
        Course a order (a.lookup reference (recached (order rest.length) s)).2 rest more s' := by
  constructor
  · intro h
    cases h with
    | look hsteps hrest =>
        rw [← steps_resolve.mp hsteps]
        exact ⟨_, rfl, hrest⟩
  · rintro ⟨more, rfl, hrest⟩
    exact .look (steps_resolve.mpr rfl) hrest

theorem steps_forgetting {c : LocalCall Unit} (hn : c.note? = none) :
    Steps Scene.Answers r (.askHere c .done : Proc (Call H) Unit) s [] (.done ()) t ↔
      t = { s with here := (Local.answer c s.here).2 } := by
  rw [askHere, steps_ask]
  constructor
  · rintro ⟨_, _, hanswer, hrest⟩
    obtain ⟨-, rfl⟩ := (Scene.answers_here hn).mp hanswer
    exact (steps_done.mp hrest).2.2
  · rintro rfl
    exact ⟨(), _, (Scene.answers_here hn).mpr ⟨rfl, rfl⟩, .refl _ _⟩

theorem course_invalidate {id : Uuid} :
    Course a order s (.invalidate id :: rest) results s' ↔
      Course a order (recached (Local.forget id) (recached (order rest.length) s)) rest results
        s' := by
  constructor
  · intro h
    cases h with
    | invalidate hsteps hrest =>
        obtain rfl := (steps_forgetting rfl).mp hsteps
        exact hrest
  · exact .invalidate ((steps_forgetting rfl).mpr rfl)

theorem course_clear :
    Course a order s (.clear :: rest) results s' ↔
      Course a order (recached (fun _ => []) s) rest results s' := by
  constructor
  · intro h
    cases h with
    | clear hsteps hrest =>
        obtain rfl := (steps_forgetting rfl).mp hsteps
        exact hrest
  · exact .clear ((steps_forgetting rfl).mpr rfl)

theorem course_change {id : Uuid} {rows : List PrimitiveRow} :
    Course a order s (.change id rows :: rest) results s' ↔
      Course a order (stored rows s) rest results s' := by
  constructor
  · intro h
    cases h with
    | change hrest => exact hrest
  · exact .change

end

/-- Whatever was read from rows that are still there makes no difference to what follows. -/
theorem course_iff {order : ℕ → List Primitive → List Primitive}
    (horder : ∀ n cache, (order n cache).Perm cache) {rows : List PrimitiveRow}
    {actions : List Action} (hactions : Orderly rows actions) (hs : a.Faithful s)
    (hrows : s.memory.primitives = rows) (results : List (Except PrimitiveError Primitive)) :
    (∃ s', Course a order s actions results s') ↔ results = a.directly rows actions := by
  induction hactions generalizing s results with
  | nil => simp [course_nil, directly]
  | @look rows reference rest hrest ih =>
      subst hrows
      have hreordered : a.Faithful (recached (order rest.length) s) :=
        faithful_recached hs (horder _ _).subset
      have hread : a.Faithful (a.lookup reference (recached (order rest.length) s)).2 :=
        faithful_lookup hreordered
      have hnext := ih hread lookup_memory
      simp only [course_look, lookup_fst hreordered hrest.distinct, directly]
      constructor
      · rintro ⟨s', more, rfl, hcourse⟩
        rw [(hnext more).mp ⟨s', hcourse⟩]
        rfl
      · rintro rfl
        obtain ⟨s', hcourse⟩ := (hnext _).mpr rfl
        exact ⟨s', _, rfl, hcourse⟩
  | @invalidate rows id rest hrest ih =>
      simp only [course_invalidate, directly]
      have hreordered := faithful_recached hs (horder rest.length _).subset
      exact ih (faithful_recached hreordered (List.filter_subset_self _)) hrows results
  | @clear rows rest hrest ih =>
      simp only [course_clear, directly]
      exact ih (faithful_recached hs (List.nil_subset _)) hrows results
  | @change rows rows' id rest hdistinct hsame hrest ih =>
      subst hrows
      simp only [course_change, course_invalidate, directly]
      -- The order may be chosen before the row is changed, as the cache is the same then.
      have hreordered := faithful_recached hs (horder rest.length _).subset
      exact ih (faithful_forget hreordered hsame) rfl results

/-- Primitives are looked up, forgotten and changed in the store, in any order in which identifiers
and names stay unique and each primitive is forgotten as soon as its row was changed.  Then the
cache cannot be seen: every lookup gives what one gives that goes to the store, also if that is an
error, whatever was kept before it and in whatever order that is searched. -/
theorem cache_is_transparent (a : Adapter H) {order : ℕ → List Primitive → List Primitive}
    (horder : ∀ n cache, (order n cache).Perm cache) {actions : List Action} {s : Scene}
    (hcache : s.here.cache = []) (hactions : Orderly s.memory.primitives actions)
    (results : List (Except PrimitiveError Primitive)) :
    (∃ s', Course a order s actions results s') ↔
      results = a.directly s.memory.primitives actions := by
  have hs : a.Faithful s := by
    intro p hp
    rw [hcache] at hp
    cases hp
  exact course_iff horder hactions hs rfl results

/-- The row of a primitive that echoes. -/
def echoOf (id : Nat) (name : String) : PrimitiveRow := { Setting.echoRow with id := ⟨id⟩, name }

/-- What is read from such a row. -/
def echoRead (id : Nat) (name : String) : Primitive := ⟨⟨id⟩, name, "test", [], 1000, true, "1"⟩

/-- A primitive is renamed after it was kept, another one takes its name, and then cannot be read
any more. -/
def renamed : List Action :=
  let unreadable : PrimitiveRow := { echoOf 8 "echo" with inputSchema := .str "" }
  [.look (.name "echo"),
    .change ⟨7⟩ [echoOf 7 "old"], .invalidate ⟨7⟩,
    .change ⟨8⟩ [echoOf 7 "old", echoOf 8 "echo"], .invalidate ⟨8⟩,
    .look (.name "echo"), .look (.id ⟨7⟩), .look (.name "none"),
    .change ⟨8⟩ [echoOf 7 "old", unreadable], .invalidate ⟨8⟩,
    .look (.name "echo"), .clear, .look (.id ⟨7⟩)]

theorem cache_is_transparent_renamed :
    ∃ message s', Course Setting.echoAdapter (fun _ => List.reverse)
      ⟨Memory.empty.putPrimitive (echoOf 7 "echo"), .empty, []⟩ renamed
      [.ok (echoRead 7 "echo"), .ok (echoRead 8 "echo"), .ok (echoRead 7 "old"),
        .error (.notFound "none"), .error (.invalidSchema "echo" message),
        .ok (echoRead 7 "old")] s' := by
  have horder (_ : ℕ) (cache : List Primitive) : cache.reverse.Perm cache := cache.reverse_perm
  refine ⟨_, (cache_is_transparent Setting.echoAdapter horder rfl ?_ _).mpr rfl⟩
  refine .look (.change ⟨by decide, by decide⟩ (.refl _) ?_)
  refine .change ⟨by decide, by decide⟩ (.refl _) (.look (.look (.look ?_)))
  refine .change ⟨by decide, by decide⟩ (.refl _) (.look (.clear (.look (.nil ?_))))
  exact ⟨by decide, by decide⟩

end Adapter

end Workflow
