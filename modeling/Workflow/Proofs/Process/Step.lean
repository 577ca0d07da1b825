import Mathlib.Logic.Function.Basic
import Mathlib.Logic.Relation
import Workflow.Process.Poll

/-!
# Interleavings of processes

One step of a process is one call with its answer, or something that nobody else can see.  Parts
that run side by side take steps in any order, a wait may be over at any time, and so may a
limit.  A pool has a process, the tasks that were left behind by it, and requests that come from
outside; a run of the pool is any sequence of steps of these.  What a call may be answered
depends on the state and on who makes it.
-/

namespace Workflow

/-- Who makes a call: a process itself, one of its parts that run side by side, foreign code that
it runs under a limit or that was left behind there, or a request that comes from outside. -/
inductive Role where
  | owner
  | branch
  | guest
  | request
  deriving DecidableEq, Repr

namespace Role

/-- The role of the parts that run side by side in a process. -/
def part : Role → Role
  | .owner => .branch
  | r => r

/-- Whether a call by the second may come between two steps of the first.  A process that waits
for its parts makes no calls of its own, but all else goes on beside a guest or a request. -/
def Meets : Role → Role → Prop
  | .owner, r => r ≠ .owner
  | .branch, r => r ≠ .owner
  | _, _ => True

theorem meets_part (r : Role) : r.Meets r.part := by cases r <;> simp [Meets, part]

theorem meets_guest (r : Role) : r.Meets .guest := by cases r <;> simp [Meets]

theorem guest_meets (r : Role) : Role.guest.Meets r := trivial

theorem request_meets (r : Role) : Role.request.Meets r := trivial

@[simp] theorem part_meets (r : Role) : r.part.Meets = r.Meets := by cases r <;> rfl

theorem part_ne_owner (r : Role) : r.part ≠ .owner := by cases r <;> simp [part]

@[simp] theorem part_part (r : Role) : r.part.part = r.part := by cases r <;> rfl

end Role

namespace Proc

universe u

variable {E : Type → Type 1} {S : Type u}

/-- One step of a process in a state, with the tasks that it leaves behind. -/
inductive Step (A : Role → (β : Type) → E β → S → β → S → Prop) :
    Role → {α : Type} → Proc E α → S → List (Proc E Unit) → Proc E α → S → Prop where
  | ask {r : Role} {α β : Type} {c : E β} {next : β → Proc E α} {s s' : S} {b : β} :
      A r β c s b s' → Step A r (.ask c next) s [] (next b) s'
  | begun {r : Role} {α : Type} {d : Deadline} {stop : Option (E Bool)} {next : Bool → Proc E α}
      {s : S} (d' : Deadline) : Step A r (.wait d stop next) s [] (.wait d' stop next) s
  | elapsed {r : Role} {α : Type} {d : Deadline} {stop : Option (E Bool)} {next : Bool → Proc E α}
      {s : S} : Step A r (.wait d stop next) s [] (next true) s
  | stopped {r : Role} {α : Type} {d : Deadline} {c : E Bool} {next : Bool → Proc E α}
      {s s' : S} : A r.part Bool c s true s' → Step A r (.wait d (some c) next) s [] (next false) s'
  | notStopped {r : Role} {α : Type} {d : Deadline} {c : E Bool} {next : Bool → Proc E α}
      {s s' : S} :
      A r.part Bool c s false s' →
        Step A r (.wait d (some c) next) s [] (.wait d (some c) next) s'
  | limited {r : Role} {α β : Type} {d : Option Deadline} {stop : Option (E Bool)}
      {body body' : Proc E β} {next : Ending β → Proc E α} {s s' : S} {left : List (Proc E Unit)} :
      Step A .guest body s left body' s' →
        Step A r (.limited d stop body next) s left (.limited d stop body' next) s'
  | limitBegun {r : Role} {α β : Type} {d : Deadline} {stop : Option (E Bool)}
      {body : Proc E β} {next : Ending β → Proc E α} {s : S} (d' : Deadline) :
      Step A r (.limited (some d) stop body next) s [] (.limited (some d') stop body next) s
  | limitDone {r : Role} {α β : Type} {d : Option Deadline} {stop : Option (E Bool)}
      {b : β} {next : Ending β → Proc E α} {s : S} :
      Step A r (.limited d stop (.done b) next) s [] (next (.finished b)) s
  | limitPanic {r : Role} {α β : Type} {d : Option Deadline} {stop : Option (E Bool)}
      {m : String} {next : Ending β → Proc E α} {s : S} :
      Step A r (.limited d stop (.panic m) next) s [] (.panic m) s
  | limitElapsed {r : Role} {α β : Type} {d : Deadline} {stop : Option (E Bool)}
      {body : Proc E β} {next : Ending β → Proc E α} {s : S} :
      Step A r (.limited (some d) stop body next) s body.startedTasks (next .timedOut) s
  | limitStopped {r : Role} {α β : Type} {d : Option Deadline} {c : E Bool}
      {body : Proc E β} {next : Ending β → Proc E α} {s s' : S} :
      A r.part Bool c s true s' →
        Step A r (.limited d (some c) body next) s body.startedTasks (next .stopped) s'
  | limitNotStopped {r : Role} {α β : Type} {d : Option Deadline} {c : E Bool}
      {body : Proc E β} {next : Ending β → Proc E α} {s s' : S} :
      A r.part Bool c s false s' →
        Step A r (.limited d (some c) body next) s [] (.limited d (some c) body next) s'
  | part {r : Role} {α β : Type} {n : Nat} {parts : Fin n → Proc E β}
      {next : (Fin n → β) → Proc E α} {s s' : S} {left : List (Proc E Unit)} {q : Proc E β}
      (i : Fin n) :
      Step A r.part (parts i) s left q s' →
        Step A r (.all n parts next) s left (.all n (Function.update parts i q) next) s'
  | partsDone {r : Role} {α β : Type} {n : Nat} {parts : Fin n → Proc E β}
      {next : (Fin n → β) → Proc E α} {s : S} {results : Fin n → β} :
      (∀ i, parts i = .done (results i)) → Step A r (.all n parts next) s [] (next results) s
  | partPanic {r : Role} {α β : Type} {n : Nat} {parts : Fin n → Proc E β}
      {next : (Fin n → β) → Proc E α} {s : S} {m : String} (i : Fin n) :
      parts i = .panic m →
        Step A r (.all n parts next) s
          ((List.finRange n).flatMap fun j => (parts j).startedTasks) (.panic m) s
  | attempt {r : Role} {α β : Type} {body body' : Proc E β} {next : Except String β → Proc E α}
      {s s' : S} {left : List (Proc E Unit)} :
      Step A r body s left body' s' →
        Step A r (.attempt body next) s left (.attempt body' next) s'
  | attemptDone {r : Role} {α β : Type} {b : β} {next : Except String β → Proc E α} {s : S} :
      Step A r (.attempt (.done b) next) s [] (next (.ok b)) s
  | attemptPanic {r : Role} {α β : Type} {m : String} {next : Except String β → Proc E α} {s : S} :
      Step A r (.attempt (.panic m) next) s [] (next (.error m)) s
  | ownStarted {r : Role} {α β : Type} {body : Proc E β} {next : Except String β → Proc E α}
      {s : S} : Step A r (.own false body next) s [] (.own true body next) s
  | own {r : Role} {α β : Type} {body body' : Proc E β} {next : Except String β → Proc E α}
      {s s' : S} {left : List (Proc E Unit)} :
      Step A r body s left body' s' →
        Step A r (.own true body next) s left (.own true body' next) s'
  | ownDone {r : Role} {α β : Type} {b : β} {next : Except String β → Proc E α} {s : S} :
      Step A r (.own true (.done b) next) s [] (next (.ok b)) s
  | ownPanic {r : Role} {α β : Type} {m : String} {next : Except String β → Proc E α} {s : S} :
      Step A r (.own true (.panic m) next) s [] (next (.error m)) s

end Proc

/-! ### Pools -/

universe u

/-- A process, the tasks that were left behind by it, and the requests that came from outside,
in a state. -/
structure Pool (E : Type → Type 1) (S : Type u) (α ρ : Type) : Type (max 1 u) where
  main : Proc E α
  tasks : List (Proc E Unit)
  requests : List (Proc E ρ)
  state : S

namespace Pool

variable {E : Type → Type 1} {S : Type u} {α ρ : Type}

/-- One step in a pool.  A request comes at any time at which it may be opened. -/
inductive Move (A : Role → (β : Type) → E β → S → β → S → Prop) (opens : S → Proc E ρ → Prop) :
    Pool E S α ρ → Pool E S α ρ → Prop where
  | main {p p' : Proc E α} {tasks left : List (Proc E Unit)} {requests : List (Proc E ρ)}
      {s s' : S} :
      Proc.Step A .owner p s left p' s' →
        Move A opens ⟨p, tasks, requests, s⟩ ⟨p', tasks ++ left, requests, s'⟩
  | task {p : Proc E α} {t t' : Proc E Unit} {before after left : List (Proc E Unit)}
      {requests : List (Proc E ρ)} {s s' : S} :
      Proc.Step A .guest t s left t' s' →
        Move A opens ⟨p, before ++ t :: after, requests, s⟩
          ⟨p, before ++ t' :: after ++ left, requests, s'⟩
  | request {p : Proc E α} {tasks left : List (Proc E Unit)} {q q' : Proc E ρ}
      {before after : List (Proc E ρ)} {s s' : S} :
      Proc.Step A .request q s left q' s' →
        Move A opens ⟨p, tasks, before ++ q :: after, s⟩
          ⟨p, tasks ++ left, before ++ q' :: after, s'⟩
  | opened {p : Proc E α} {tasks : List (Proc E Unit)} {requests : List (Proc E ρ)}
      {q : Proc E ρ} {s : S} :
      opens s q → Move A opens ⟨p, tasks, requests, s⟩ ⟨p, tasks, requests ++ [q], s⟩

/-- One pool after any number of steps of another. -/
def Reaches (A : Role → (β : Type) → E β → S → β → S → Prop) (opens : S → Proc E ρ → Prop) :
    Pool E S α ρ → Pool E S α ρ → Prop :=
  Relation.ReflTransGen (Move A opens)

variable {A : Role → (β : Type) → E β → S → β → S → Prop} {opens : S → Proc E ρ → Prop}
  {a b : Pool E S α ρ}

/-- A step in a pool is one of its process, of a task or of a request, or a request comes. -/
theorem move_cases (h : Move A opens a b) :
    (∃ left, Proc.Step A .owner a.main a.state left b.main b.state ∧ b.tasks = a.tasks ++ left ∧
        b.requests = a.requests) ∨
      (∃ before after t t' left, a.tasks = before ++ t :: after ∧
        Proc.Step A .guest t a.state left t' b.state ∧ b.main = a.main ∧
        b.tasks = before ++ t' :: after ++ left ∧ b.requests = a.requests) ∨
      (∃ before after q q' left, a.requests = before ++ q :: after ∧
        Proc.Step A .request q a.state left q' b.state ∧ b.main = a.main ∧
        b.tasks = a.tasks ++ left ∧ b.requests = before ++ q' :: after) ∨
      ∃ q, opens a.state q ∧ b = { a with requests := a.requests ++ [q] } := by
  cases h with
  | main hstep => exact .inl ⟨_, hstep, rfl, rfl⟩
  | task hstep => exact .inr (.inl ⟨_, _, _, _, _, rfl, hstep, rfl, rfl, rfl⟩)
  | request hstep => exact .inr (.inr (.inl ⟨_, _, _, _, _, rfl, hstep, rfl, rfl, rfl⟩))
  | opened hq => exact .inr (.inr (.inr ⟨_, hq, rfl⟩))

/-- The first step of a process that begins with a call and has nothing beside it. -/
theorem move_of_ask {β : Type} {c : E β} {next : β → Proc E α} {s : S}
    (h : Move A opens (⟨.ask c next, [], [], s⟩ : Pool E S α ρ) b) :
    (∃ reply s', A .owner β c s reply s' ∧ b = ⟨next reply, [], [], s'⟩) ∨
      ∃ q, opens s q ∧ b = ⟨.ask c next, [], [q], s⟩ := by
  rcases move_cases h with ⟨left, hstep, htasks, hrequests⟩ | ⟨_, _, _, _, _, hnil, -⟩ |
    ⟨_, _, _, _, _, hnil, -⟩ | ⟨q, hq, rfl⟩
  · obtain ⟨main, tasks, requests, state⟩ := b
    cases hstep with
    | ask hanswer => exact .inl ⟨_, _, hanswer, by simp_all⟩
  · simp at hnil
  · simp at hnil
  · exact .inr ⟨q, hq, rfl⟩

end Pool

end Workflow
