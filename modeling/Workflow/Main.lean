import Std.Time.DateTime.Timestamp
import Workflow.Command.Perform

/-!
# The program

The program reads its arguments, the environment and the file that it was given, does what
it was asked for, and prints the report.  It sleeps while a workflow waits.  It has a store
in memory only: what needs a database or the network finds none.
-/

namespace Workflow.Program

def readClock : IO Time.Instant := do
  let stamp ← Std.Time.Timestamp.now
  return (⟨0, 0⟩ : Time.Instant).addNanos stamp.toNanosecondsSinceUnixEpoch.val

def readFresh : IO (Nat → Uuid) := do
  let bytes ← IO.getRandomBytes 16
  let seed := bytes.toList.foldl (fun n b => 256 * n + b.toNat) 0
  return fun n => Uuid.random (seed + n)

def readEnvironment (names : List String) : IO Environment := do
  let found ← names.filterMapM fun name => do
    return (← IO.getEnv name).map fun value => (name, value)
  return Keyed.ofList found

def cause : IO.Error → String
  | .noFileOrDirectory _ _ _ => "No such file or directory (os error 2)"
  | .permissionDenied _ _ _ => "Permission denied (os error 13)"
  | .inappropriateType _ code details =>
    details ++ " (os error " ++ Decimal.intText code.toNat ++ ")"
  | e => toString e

def readFile (path : String) : IO (Except String String) := do
  try
    let bytes ← IO.FS.readBinFile path
    match Text.decode? bytes.toList with
    | some text => return .ok text
    | none => return .error "stream did not contain valid UTF-8"
  catch e => return .error (cause e)

/-- The text for a peer that is not there. -/
def unreachable : String := "nothing can be reached over the network"

def peers (epoch : Time.Instant) (fresh : Nat → Uuid) : Peers Empty Unit where
  epoch := epoch
  fresh := fresh
  backing := .database fun _ state => (.error unreachable, state)
  exchange := fun _ state => (none, state)
  custom := fun h => nomatch h

/-- The most milliseconds that the program sleeps at once. -/
def longestPause : Nat := 1000000000

/-- Runs a process.  When all of it waits, the program sleeps until something can go on. -/
def runOnClock (s : Session Empty Unit) (started : Nat) :
    Nat → Proc (Call Empty) Report → List (Proc (Call Empty) Unit) → World Unit → IO Report
  | 0, _, _, _ => return .ofEnding (.error Session.stuckText)
  | more + 1, p, others, w => do
    let settled := Proc.settle s.peers.host Session.maxTicks p others w
    match settled.proc with
    | .done report => return report
    | .panic message => return .ofEnding (.error message)
    | p =>
      match Proc.nextTickOf p settled.others with
      | none => return .ofEnding (.error Session.stuckText)
      | some tick =>
        let elapsed := (← IO.monoMsNow) - started
        let pause := min (tick - elapsed) longestPause
        IO.sleep (UInt32.ofNat pause)
        let reached := max settled.world.tick (min tick (elapsed + pause))
        runOnClock s started more p settled.others { settled.world with tick := reached }

def perform (job : Job Empty) (s : Session Empty Unit) : IO Report := do
  match job with
  | .inMemory store body =>
    let s := s.withStore store
    runOnClock s (← IO.monoMsNow) Session.maxTicks body [] s.world
  | job => return (job.perform s).1.getD (.failure [unreachable])

def run (args : List String) : IO Report := do
  let now ← readClock
  let fresh ← readFresh
  let environment ← readEnvironment Command.variableNames
  match Command.parse environment args with
  | .error e => return .ofArgsError environment e
  | .ok command =>
    let text ← readFile (command.path?.getD "")
    let environment ← readEnvironment command.allowed
    let job := Job.ofCommand ⟨environment, fun _ => text, fresh, now⟩ command
    perform job (.start (peers now fun n => fresh (n + Job.reserved)) .empty ())

end Workflow.Program

/-- Does what the arguments ask for, prints the report, and ends with its code. -/
def main (args : List String) : IO UInt32 := do
  let report ← Workflow.Program.run args
  IO.print report.output
  IO.eprint report.errors
  return UInt32.ofNat report.code
