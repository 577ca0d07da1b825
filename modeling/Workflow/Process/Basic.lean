/-!
# Processes

A process is a tree of what it does: it asks its surroundings for something and goes on
with the answer, it waits, it runs parts under a time limit, side by side, or as tasks
of their own, and in the end it has a result.  What the surroundings answer, and when
the parts take their turns, is not part of a process.
-/

namespace Workflow

/-- When a wait is over: some nanoseconds after it begins, or at a tick of the clock. -/
inductive Deadline where
  | after (nanos : Nat)
  | tick (t : Nat)
  deriving Repr, DecidableEq

/-- How a part with a limit ended: with its result, because its time was up, or because it
was told to stop. -/
inductive Ending (β : Type) where
  | finished (result : β)
  | timedOut
  | stopped
  deriving Repr, DecidableEq

/-- A process with a result of type `α`, which makes calls of type `E`.

* `done` has a result, and `panic` breaks off without one.
* `ask` makes a call and goes on with its reply.
* `wait` goes on when the deadline has passed, or when the call `stop` is answered by
  true; what it goes on with tells whether the deadline has passed.
* `limited` runs a part until it is finished, the deadline has passed or the call `stop`
  is answered by true, whichever is seen first.
* `all` runs several parts side by side until all of them are finished.
* `attempt` runs a part, and goes on with the message of the panic if that breaks it off.
* `own` runs a part as a task of its own.  It goes on when the task has ended, with the
  message of the panic if that ended it.  A task that was started goes on even if
  nothing waits for it any more. -/
inductive Proc (E : Type → Type 1) : Type → Type 1 where
  | done {α : Type} (result : α) : Proc E α
  | panic {α : Type} (message : String) : Proc E α
  | ask {α β : Type} (call : E β) (next : β → Proc E α) : Proc E α
  | wait {α : Type} (deadline : Deadline) (stop : Option (E Bool)) (next : Bool → Proc E α) :
      Proc E α
  | limited {α β : Type} (deadline : Option Deadline) (stop : Option (E Bool)) (body : Proc E β)
      (next : Ending β → Proc E α) : Proc E α
  | all {α β : Type} (n : Nat) (parts : Fin n → Proc E β) (next : (Fin n → β) → Proc E α) :
      Proc E α
  | attempt {α β : Type} (body : Proc E β) (next : Except String β → Proc E α) : Proc E α
  | own {α β : Type} (started : Bool) (body : Proc E β) (next : Except String β → Proc E α) :
      Proc E α

namespace Proc

variable {E : Type → Type 1} {α β γ : Type}

def bind : Proc E α → (α → Proc E β) → Proc E β
  | done a, f => f a
  | panic message, _ => panic message
  | ask call next, f => ask call fun b => (next b).bind f
  | wait deadline stop next, f => wait deadline stop fun b => (next b).bind f
  | limited deadline stop body next, f => limited deadline stop body fun e => (next e).bind f
  | all n parts next, f => all n parts fun results => (next results).bind f
  | attempt body next, f => attempt body fun e => (next e).bind f
  | own started body next, f => own started body fun e => (next e).bind f

instance : Monad (Proc E) where
  pure := done
  bind := bind

def call (c : E α) : Proc E α := ask c done

def sleep (nanos : Nat) : Proc E Unit := wait (.after nanos) none fun _ => done ()

def sideBySide (parts : List (Proc E α)) : Proc E (List α) :=
  all parts.length parts.get fun results => done (List.ofFn results)

def task (p : Proc E α) : Proc E (Except String α) := own false p done

/-- A process with a call that is made when it ends, even by a panic. -/
def closing (p : Proc E α) (c : E Unit) : Proc E α :=
  attempt p fun ended => ask c fun _ =>
    match ended with
    | .ok a => done a
    | .error message => panic message

/-- A process without its result. -/
def void (p : Proc E α) : Proc E Unit := p.bind fun _ => done ()

@[simp] theorem pure_eq_done (a : α) : (pure a : Proc E α) = done a := rfl

@[simp] theorem bind_eq_bind (p : Proc E α) (f : α → Proc E β) : p >>= f = p.bind f := rfl

@[simp] theorem done_bind (a : α) (f : α → Proc E β) : (done a).bind f = f a := rfl

@[simp] theorem panic_bind (message : String) (f : α → Proc E β) :
    (panic message : Proc E α).bind f = panic message := rfl

@[simp] theorem ask_bind (c : E γ) (next : γ → Proc E α) (f : α → Proc E β) :
    (ask c next).bind f = ask c fun b => (next b).bind f := rfl

@[simp] theorem bind_done (p : Proc E α) : p.bind done = p := by
  induction p with
  | done => rfl
  | panic => rfl
  | ask _ _ ih => simp only [bind, ih]
  | wait _ _ _ ih => simp only [bind, ih]
  | limited _ _ _ _ _ ih => simp only [bind, ih]
  | all _ _ _ _ ih => simp only [bind, ih]
  | attempt _ _ _ ih => simp only [bind, ih]
  | own _ _ _ _ ih => simp only [bind, ih]

theorem bind_assoc (p : Proc E α) (f : α → Proc E β) (g : β → Proc E γ) :
    (p.bind f).bind g = p.bind fun a => (f a).bind g := by
  induction p with
  | done => rfl
  | panic => rfl
  | ask _ _ ih => simp only [bind, ih]
  | wait _ _ _ ih => simp only [bind, ih]
  | limited _ _ _ _ _ ih => simp only [bind, ih]
  | all _ _ _ _ ih => simp only [bind, ih]
  | attempt _ _ _ ih => simp only [bind, ih]
  | own _ _ _ _ ih => simp only [bind, ih]

end Proc

end Workflow
