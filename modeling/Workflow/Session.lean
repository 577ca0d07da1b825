import Workflow.World

/-!
# Sessions

A session is a world with its peers, and with the tasks that go on in it although nothing
waits for them.  What one process leaves behind is there when the next one runs.
-/

namespace Workflow

/-- A world with its peers and with the tasks that go on in it. -/
structure Session (H S : Type) : Type 1 where
  peers : Peers H S
  world : World S
  others : List (Proc (Call H) Unit)

namespace Session

variable {H S α : Type}

def start (peers : Peers H S) (memory : Memory) (state : S) : Session H S :=
  ⟨peers, .start memory state, []⟩

def modifyMemory (s : Session H S) (f : Memory → Memory) : Session H S :=
  { s with world := { s.world with memory := f s.world.memory } }

def modifyState (s : Session H S) (f : S → S) : Session H S :=
  { s with world := { s.world with peers := f s.world.peers } }

def withStore (s : Session H S) (store : Memory) : Session H S :=
  { s with
    peers := { s.peers with backing := .memory .none }
    world := { s.world with memory := store } }

def maxTicks : Nat := 100000000

/-- The message for a process that waits for something that never happens. -/
def stuckText : String := "nothing can go on"

/-- Runs a process to its end.  It has a result, or the message of the panic that broke it
off. -/
def run (s : Session H S) (p : Proc (Call H) α) : Except String α × Session H S :=
  let settled := Proc.run s.peers.host maxTicks p s.others s.world
  let s : Session H S := ⟨s.peers, settled.world, settled.others⟩
  match settled.proc with
  | .done a => (.ok a, s)
  | .panic message => (.error message, s)
  | _ => (.error stuckText, s)

def spawn (s : Session H S) (p : Proc (Call H) Unit) : Session H S :=
  { s with others := s.others ++ [p] }

/-- Takes all tasks as far as they can go without the clock moving. -/
def settle (s : Session H S) : Session H S :=
  let idle : Proc (Call H) Unit := .wait (.tick (s.world.tick + 1)) none fun _ => .done ()
  let settled := Proc.settle s.peers.host maxTicks idle s.others s.world
  ⟨s.peers, settled.world, settled.others⟩

/-- Sends a statement to the database, which a store in memory does not have. -/
def send (s : Session H S) (statement : Sql.Statement) :
    Except String Sql.Reply × Session H S :=
  match s.peers.backing with
  | .memory _ => (.error "there is no database", s)
  | .database reply =>
    let (answer, state) := reply statement s.world.peers
    (answer, s.modifyState fun _ => state)

end Session

end Workflow
