import Workflow.Process.Basic

/-!
# Running processes on a clock

A world answers calls at once and has a clock.  Polling a process takes it as far as
it can go without the clock moving; parts that run side by side take turns in their
order.  A group of processes is polled until all of them wait, and then the clock moves
to the next deadline.  Waits end on whole ticks of a millisecond.
-/

namespace Workflow

/-- How a world answers calls, and its clock. -/
structure Host (E : Type → Type 1) (W : Type) where
  answer : {β : Type} → E β → W → β × W
  tick : W → Nat
  advance : Nat → W → W

def nanosPerTick : Nat := 1000000

def farNanos : Nat := Nat.pow 2 63 * 1000000000

def farTicks : Nat := 86400 * 365 * 30 * 1000

def Deadline.due (now : Nat) : Deadline → Nat
  | .after nanos =>
    now + if farNanos ≤ nanos then farTicks else (nanos + nanosPerTick - 1) / nanosPerTick
  | .tick t => t

namespace Proc

variable {E : Type → Type 1} {W α β : Type}

/-- What happened in a turn: whether anything did, and which tasks go on although nothing
waits for them. -/
structure Turn (E : Type → Type 1) : Type 1 where
  moved : Bool
  left : List (Proc E Unit)

def Turn.start : Turn E := ⟨false, []⟩

def Turn.step (t : Turn E) : Turn E := { t with moved := true }

def Turn.join (t inner : Turn E) : Turn E := ⟨t.moved || inner.moved, t.left ++ inner.left⟩

def Turn.leave (t : Turn E) (tasks : List (Proc E Unit)) : Turn E :=
  ⟨true, t.left ++ tasks⟩

/-- A process after it was polled: what is left of it, what happened, and the world. -/
structure Polled (E : Type → Type 1) (W α : Type) : Type 1 where
  proc : Proc E α
  turn : Turn E
  world : W

/-- Several processes after they were polled. -/
structure PolledAll (E : Type → Type 1) (W β : Type) (n : Nat) : Type 1 where
  parts : Fin n → Proc E β
  turn : Turn E
  world : W

def startedTasks : {α : Type} → Proc E α → List (Proc E Unit)
  | _, .own true body _ => [body.void]
  | _, .limited _ _ body _ => startedTasks body
  | _, .attempt body _ => startedTasks body
  | _, .all n parts _ => (List.finRange n).flatMap fun i => startedTasks (parts i)
  | _, _ => []

def pollAll : (n : Nat) → (Fin n → Proc E β) → (Fin n → W → Polled E W β) → W →
    PolledAll E W β n
  | 0, parts, _, w => ⟨parts, .start, w⟩
  | n + 1, parts, poll, w =>
    let first := poll 0 w
    match first.proc with
    | .panic message =>
      ⟨Fin.cases (.panic message) fun i => parts i.succ, first.turn, first.world⟩
    | p =>
      let rest := pollAll n (fun i => parts i.succ) (fun i => poll i.succ) first.world
      ⟨Fin.cases p rest.parts, first.turn.join rest.turn, rest.world⟩

def results? : (n : Nat) → (Fin n → Proc E β) → Option (Fin n → β)
  | 0, _ => some fun i => i.elim0
  | n + 1, parts =>
    match parts 0 with
    | .done b => (results? n fun i => parts i.succ).map fun rest => Fin.cases b rest
    | _ => none

def panicked? : (n : Nat) → (Fin n → Proc E β) → Option String
  | 0, _ => none
  | n + 1, parts =>
    match parts 0 with
    | .panic message => some message
    | _ => panicked? n fun i => parts i.succ

def stopAsked (h : Host E W) (stop : Option (E Bool)) (w : W) : Bool × W :=
  match stop with
  | some c => h.answer c w
  | none => (false, w)

/-- Takes a process as far as it can go at this tick, in a turn in which something may have
happened already. -/
def pollFrom (h : Host E W) : {α : Type} → Proc E α → Turn E → W → Polled E W α
  | _, .done a, turn, w => ⟨.done a, turn, w⟩
  | _, .panic message, turn, w => ⟨.panic message, turn.step, w⟩
  | _, .ask c next, turn, w =>
    let (reply, w) := h.answer c w
    pollFrom h (next reply) turn.step w
  | _, .wait deadline stop next, turn, w =>
    let due := deadline.due (h.tick w)
    if due ≤ h.tick w then pollFrom h (next true) turn.step w
    else
      let (stopped, w) := stopAsked h stop w
      if stopped then pollFrom h (next false) turn.step w
      else ⟨.wait (.tick due) stop next, turn, w⟩
  | _, .limited deadline stop body next, turn, w =>
    let due := deadline.map fun d => d.due (h.tick w)
    let polled := pollFrom h body .start w
    let turn := turn.join polled.turn
    match polled.proc with
    | .done b => pollFrom h (next (.finished b)) turn.step polled.world
    | .panic message => ⟨.panic message, turn, polled.world⟩
    | body =>
      let late := match due with
        | some t => decide (t ≤ h.tick polled.world)
        | none => false
      if late then pollFrom h (next .timedOut) (turn.leave body.startedTasks) polled.world
      else
        let (stopped, w) := stopAsked h stop polled.world
        if stopped then pollFrom h (next .stopped) (turn.leave body.startedTasks) w
        else ⟨.limited (due.map .tick) stop body next, turn, w⟩
  | _, .all n parts next, turn, w =>
    let polled := pollAll n parts (fun i w => pollFrom h (parts i) .start w) w
    let turn := turn.join polled.turn
    match panicked? n polled.parts with
    | some message =>
      ⟨.panic message,
        turn.leave ((List.finRange n).flatMap fun i => startedTasks (polled.parts i)),
        polled.world⟩
    | none =>
      match results? n polled.parts with
      | some results => pollFrom h (next results) turn.step polled.world
      | none => ⟨.all n polled.parts next, turn, polled.world⟩
  | _, .attempt body next, turn, w =>
    let polled := pollFrom h body .start w
    let turn := turn.join polled.turn
    match polled.proc with
    | .done b => pollFrom h (next (.ok b)) turn.step polled.world
    | .panic message => pollFrom h (next (.error message)) turn.step polled.world
    | body => ⟨.attempt body next, turn, polled.world⟩
  | _, .own false body next, turn, w => ⟨.own true body next, turn.step, w⟩
  | _, .own true body next, turn, w =>
    let polled := pollFrom h body .start w
    let turn := turn.join polled.turn
    match polled.proc with
    | .done b => pollFrom h (next (.ok b)) turn.step polled.world
    | .panic message => pollFrom h (next (.error message)) turn.step polled.world
    | body => ⟨.own true body next, turn, polled.world⟩

def poll (h : Host E W) (p : Proc E α) (w : W) : Polled E W α := pollFrom h p .start w

def earlier : Option Nat → Option Nat → Option Nat
  | some a, some b => some (min a b)
  | some a, none => some a
  | none, b => b

def tickOf : Deadline → Option Nat
  | .tick t => some t
  | .after _ => none

def nextTick : {α : Type} → Proc E α → Option Nat
  | _, .wait deadline _ _ => tickOf deadline
  | _, .limited deadline _ body _ => earlier (deadline.bind tickOf) (nextTick body)
  | _, .all n parts _ => ((List.finRange n).map fun i => nextTick (parts i)).foldl earlier none
  | _, .attempt body _ => nextTick body
  | _, .own _ body _ => nextTick body
  | _, _ => none

/-- The next tick at which a process, or one of those beside it, can go on. -/
def nextTickOf (p : Proc E α) (others : List (Proc E Unit)) : Option Nat :=
  earlier (nextTick p) ((others.map nextTick).foldl earlier none)

def pollOthers (h : Host E W) : List (Proc E Unit) → W → Turn E × W
  | [], w => (.start, w)
  | p :: rest, w =>
    let polled := poll h p w
    let (turn, w) := pollOthers h rest polled.world
    let kept := match polled.proc with
      | .done _ => []
      | .panic _ => []
      | p => [p]
    (⟨polled.turn.moved || turn.moved, kept ++ polled.turn.left ++ turn.left⟩, w)

/-- A process that was run until it ended, or until nothing could happen any more, the tasks
that go on, and the world. -/
structure Settled (E : Type → Type 1) (W α : Type) : Type 1 where
  proc : Proc E α
  others : List (Proc E Unit)
  world : W

/-- Takes a process and others that run beside it as far as they can go at this tick, for
at most `fuel` turns. -/
def settle (h : Host E W) : Nat → Proc E α → List (Proc E Unit) → W → Settled E W α
  | 0, p, others, w => ⟨p, others, w⟩
  | fuel + 1, p, others, w =>
    let polled := poll h p w
    match polled.proc with
    | .done a => ⟨.done a, polled.turn.left ++ others, polled.world⟩
    | .panic message => ⟨.panic message, polled.turn.left ++ others, polled.world⟩
    | p =>
      let (turn, w) := pollOthers h (others ++ polled.turn.left) polled.world
      if polled.turn.moved || turn.moved then settle h fuel p turn.left w
      else ⟨p, turn.left, w⟩

/-- Runs a process, with others beside it, until it ends or nothing can happen any more.
The clock moves only when all of them wait, at most `fuel` times. -/
def run (h : Host E W) : Nat → Proc E α → List (Proc E Unit) → W → Settled E W α
  | 0, p, others, w => ⟨p, others, w⟩
  | fuel + 1, p, others, w =>
    let settled := settle h (fuel + 1) p others w
    match settled.proc with
    | .done a => { settled with proc := .done a }
    | .panic message => { settled with proc := .panic message }
    | p =>
      match nextTickOf p settled.others with
      | none => settled
      | some t =>
        let world := h.advance (max t (h.tick settled.world)) settled.world
        run h fuel p settled.others world

end Proc

end Workflow
