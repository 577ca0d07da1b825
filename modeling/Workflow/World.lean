import Workflow.Local
import Workflow.Process.Poll
import Workflow.Store.Database
import Workflow.Store.Faults

/-!
# Worlds

A world answers the calls of processes: a store in memory or in a database, the state of the
process that runs workflows, and a clock that stands still while something can go on.
What answers over the network, the database and handlers are its peers.
-/

namespace Workflow

/-- The state of a world, with that of its peers: a store, the state of the process, the
milliseconds since its start, and how many identifiers were given out. -/
structure World (S : Type) where
  memory : Memory
  here : Local
  tick : Nat
  given : Nat
  peers : S

def World.start {S : Type} (memory : Memory) (peers : S) : World S :=
  ⟨memory, .empty, 0, 0, peers⟩

/-- Where a store keeps its rows. -/
inductive Backing (S : Type) where
  | memory (faults : Faults)
  | database (reply : Sql.Statement → S → Except String Sql.Reply × S)

/-- What a world is made of beside its state: the instant of its start, the identifiers that
it gives out, and the ways its peers answer. -/
structure Peers (H S : Type) where
  epoch : Time.Instant
  fresh : Nat → Uuid
  backing : Backing S
  exchange : Http.Request → S → Option Http.Response × S
  custom : H → World S → Json × World S

namespace Peers

variable {H S : Type}

def now (p : Peers H S) (w : World S) : Time.Instant := p.epoch.addNanos (w.tick * nanosPerTick)

/-- What the store answers.  An identifier is given out for each call that may need one. -/
def answerStore (p : Peers H S) {β : Type} (c : StoreCall β) (w : World S) :
    Except StoreError β × World S :=
  let fresh := p.fresh w.given
  let given := w.given + 1
  match p.backing with
  | .memory faults =>
    let (reply, memory) := faults.answer fresh (p.now w) c w.memory
    (reply, { w with memory, given })
  | .database reply =>
    let (reply, peers) := Sql.answer reply fresh (p.now w) c w.peers
    (reply, { w with peers, given })

def answer (p : Peers H S) {β : Type} : Call H β → World S → β × World S
  | .store c, w => p.answerStore c w
  | .here c, w =>
    let (reply, here) := Local.answer c w.here
    (reply, { w with here })
  | .clock, w => (p.now w, w)
  | .exchange r, w =>
    let (reply, peers) := p.exchange r w.peers
    (reply, { w with peers })
  | .custom h, w => p.custom h w

def host (p : Peers H S) : Host (Call H) (World S) :=
  ⟨p.answer, World.tick, fun t w => { w with tick := t }⟩

end Peers

end Workflow
