import Workflow.Primitive.Adapter
import Workflow.Run.Config
import Workflow.Run.Result

/-!
# Walking a graph

A node is visited in a context: it is executed, its output is put into the context, and
the edges that leave it are followed one after another, each in the context that the one
before left.  A loop visits the targets of its `body` edges for each item, and a parallel
node those of all its edges side by side; their contexts are given up when they are
through.  A node that has run before in a context is skipped.  A failure ends the path it
happens on, and goes back to whatever began that path.
-/

namespace Workflow

/-- What a walk needs to know: the workflow, how primitives are run, and how many items a
loop may have. -/
structure Walk (H : Type) : Type 1 where
  workflow : Definition
  adapter : Adapter H
  maxItems : Nat

/-- A path that ended with a failure, and what was known then. -/
structure PathFailure where
  nodeId : String
  error : RunError
  context : Context

/-- What came of visiting a node and all that follows it: the results in their order, and the
last context. -/
structure Visited where
  results : List NodeResult
  ending : Except PathFailure Context

/-- What came of executing a node: the results of the nodes inside it, and its output. -/
structure Executed where
  results : List NodeResult
  outcome : Except RunError Json

abbrev Visitor (H : Type) := String → Context → Proc (Call H) Visited

def bodyHandle : String := "body"

def failPath (nodeId : String) (error : RunError) (c : Context) : PathFailure :=
  ⟨nodeId, error, c.withError nodeId error.message⟩

/-- Whether an edge is one that is followed when its source has run, if its guard allows it.
The edges of a parallel node and those into the body of a loop belong to the node
itself, and a condition chooses between its edges. -/
def Edge.isOpen (e : Edge) (node : Node) (output : Json) : Bool :=
  match node.type, e.handle with
  | .parallel, _ => false
  | .loop, some handle => handle != bodyHandle
  | .condition, some "true" => output == .bool true
  | .condition, some "false" => output == .bool false
  | _, _ => true

namespace Walk

variable {H : Type}

/-- Whether the guard of an edge holds in a context.  The clock is read when there is one. -/
def guardHolds (e : Edge) (c : Context) : Proc (Call H) Bool :=
  match e.guard with
  | none => .done true
  | some guard => .askClock fun now => .done (guard.holds (c.scope now))

def follows (node : Node) (output : Json) (e : Edge) (c : Context) : Proc (Call H) Bool :=
  if e.isOpen node output then guardHolds e c else .done false

/-- Visits the targets of those edges that are chosen, each in the context that the one before
left, until one fails. -/
def follow (visit : Visitor H) (choose : Edge → Context → Proc (Call H) Bool) :
    List Edge → Context → List NodeResult → Proc (Call H) Visited
  | [], c, results => .done ⟨results, .ok c⟩
  | e :: rest, c, results =>
    (choose e c).bind fun chosen =>
      if chosen then
        (visit e.target c).bind fun visited =>
          match visited.ending with
          | .ok c => follow visit choose rest c (results ++ visited.results)
          | .error failure => .done ⟨results ++ visited.results, .error failure⟩
      else follow visit choose rest c results

/-! ### Nodes -/

def primitiveRef (nodeId : String) (config : PrimitiveConfig) : Except RunError PrimitiveRef :=
  match config.primitiveId, config.primitive with
  | some id, _ => .ok (.id id)
  | none, some name => .ok (.name name)
  | none, none =>
    .error (.invalidConfig nodeId "either primitive_id or primitive is required")

def primitiveOutcome (nodeId : String) : Except PrimitiveError Json → Except RunError Json
  | .ok output => .ok output
  | .error (.cancelled _) => .error .cancelled
  | .error e => .error (.primitive nodeId e)

def runPrimitive (w : Walk H) (node : Node) (c : Context) (now : Time.Instant) :
    Proc (Call H) (Except RunError Json) :=
  match node.read PrimitiveConfig.decoder with
  | .error message => .done (.error (.invalidConfig node.id message))
  | .ok config =>
    match primitiveRef node.id config with
    | .error e => .done (.error e)
    | .ok reference =>
      let mapped := Mapping.resolve (c.scope now) config.mapping
      let input := PrimitiveConfig.mergeInput config.fixed mapped
      let site : CallSite :=
        ⟨some c.executionId, some c.workflowId, some node.id, some c.executionId⟩
      (w.adapter.execute reference (.obj input) site).bind fun outcome =>
        .done (primitiveOutcome node.id outcome)

/-- The items of a collection that a loop goes through: the value of a variable, or that at
a path. -/
def items (w : Walk H) (nodeId : String) (config : LoopConfig) (c : Context)
    (now : Time.Instant) : Except RunError (List Json) :=
  let collection := c.binding? config.collection <|> (c.scope now).resolve config.collection
  match collection with
  | some (.arr items) =>
    if items.length ≤ w.maxItems then .ok items
    else
      .error (.invalidConfig nodeId ("collection has " ++ Decimal.intText items.length ++
        " items, limit is " ++ Decimal.intText w.maxItems))
  | some v => .error (.notList nodeId v.kind)
  | none => .error (.notList nodeId "nothing")

/-- Goes through the items of a loop.  Each one starts in the context of the loop, and gives
the last output of the body, or itself if the body has none. -/
def iterate (visit : Visitor H) (nodeId : String) (config : LoopConfig) (body : List Edge)
    (c : Context) :
    Nat → List Json → List (List NodeResult) → List Json → Proc (Call H) Executed
  | _, [], blocks, outputs => .done ⟨blocks.reverse.flatten, .ok (.arr outputs.reverse)⟩
  | index, item :: rest, blocks, outputs =>
    let start := c.withItem config.itemVariable item config.indexVariable index
    (follow visit guardHolds body start []).bind fun visited =>
      let blocks := visited.results :: blocks
      match visited.ending with
      | .error failure =>
        .done ⟨blocks.reverse.flatten, .error (.loopIteration nodeId index failure.error)⟩
      | .ok last =>
        let output := (last.lastOutputSince c.executed.length).getD item
        iterate visit nodeId config body c (index + 1) rest blocks (output :: outputs)

def runLoop (w : Walk H) (visit : Visitor H) (node : Node) (c : Context) (now : Time.Instant) :
    Proc (Call H) Executed :=
  match node.read LoopConfig.decoder with
  | .error message => .done ⟨[], .error (.invalidConfig node.id message)⟩
  | .ok config =>
    match w.items node.id config c now with
    | .error e => .done ⟨[], .error e⟩
    | .ok items =>
      let body := (w.workflow.outgoing node.id).filter fun e => e.handle = some bodyHandle
      iterate visit node.id config body c 0 items [] []

def runDelay (node : Node) (c : Context) : Proc (Call H) (Except RunError Json) :=
  match node.read DelayConfig.decoder with
  | .error message => .done (.error (.invalidConfig node.id message))
  | .ok config =>
    match config.nanos? with
    | none =>
      .done (.error (.invalidConfig node.id "delay must be a non-negative duration"))
    | some nanos =>
      .wait (.after nanos) (some (.here (.isStopped c.executionId))) fun elapsed =>
        .done <|
          if elapsed then
            .ok (.ofPairs
              [("delayed", .bool true), ("duration", .ofNat (nanos / 1000000 % Nat.pow 2 64))])
          else .error .cancelled

/-- The outputs of the branches of a parallel node, or the failure of the first one that
failed. -/
def gather (nodeId : String) (baseline : Nat) :
    List (Edge × Visited) → Except RunError (List Json)
  | [] => .ok []
  | (e, visited) :: rest =>
    match visited.ending with
    | .error failure => .error (.parallelBranch nodeId e.target failure.error)
    | .ok c => (gather nodeId baseline rest).map fun outputs =>
      (c.lastOutputSince baseline).getD .null :: outputs

def chosen (c : Context) : List Edge → Proc (Call H) (List Edge)
  | [] => .done []
  | e :: rest =>
    (guardHolds e c).bind fun holds =>
      (chosen c rest).bind fun more => .done (if holds then e :: more else more)

def runParallel (w : Walk H) (visit : Visitor H) (node : Node) (c : Context) :
    Proc (Call H) Executed :=
  let edges := (w.workflow.outgoing node.id).filter fun e => (w.workflow.node? e.target).isSome
  (chosen c edges).bind fun branches =>
    (Proc.sideBySide (branches.map fun e => visit e.target c)).bind fun visits =>
      .done
        ⟨visits.flatMap Visited.results,
          (gather node.id c.executed.length (branches.zip visits)).map Json.arr⟩

/-- The result of a process as the outcome of a node with nothing inside. -/
def alone (p : Proc (Call H) (Except RunError Json)) : Proc (Call H) Executed :=
  p.bind fun outcome => .done ⟨[], outcome⟩

def execute (w : Walk H) (visit : Visitor H) (node : Node) (c : Context) (now : Time.Instant) :
    Proc (Call H) Executed :=
  match node.type with
  | .trigger => .done ⟨[], .ok c.trigger⟩
  | .primitive => alone (w.runPrimitive node c now)
  | .condition =>
    .done ⟨[],
      match node.read conditionConfig with
      | .ok condition => .ok (.bool (condition.holds (c.scope now)))
      | .error message => .error (.invalidConfig node.id message)⟩
  | .loop => w.runLoop visit node c now
  | .delay => alone (runDelay node c)
  | .parallel => w.runParallel visit node c
  | .output =>
    .done ⟨[],
      match node.read outputConfig with
      | .ok mapping => .ok (.obj (Mapping.resolve (c.scope now) mapping))
      | .error message => .error (.invalidConfig node.id message)⟩

/-- Goes on behind a node that was executed: its result is noted, and then the edges that
leave it are followed. -/
def proceed (w : Walk H) (visit : Visitor H) (node : Node) (c : Context)
    (startedAt finishedAt : Time.Instant) (executed : Executed) : Proc (Call H) Visited :=
  let noted (outcome : Except String Json) : List NodeResult :=
    executed.results ++
      [⟨node.id, node.type, outcome, startedAt, elapsedMillis startedAt finishedAt⟩]
  match executed.outcome with
  | .error e => .done ⟨noted (.error e.message), .error (failPath node.id e c)⟩
  | .ok output =>
    follow visit (follows node output) (w.workflow.outgoing node.id) (c.withOutput node.id output)
      (noted (.ok output))

/-- Visits a node and all that follows it, on a path with room for some more nodes. -/
def visit (w : Walk H) : Nat → Visitor H
  | 0, nodeId, c => .done ⟨[], .error (failPath nodeId (.graph .cycle) c)⟩
  | room + 1, nodeId, c =>
    match w.workflow.node? nodeId with
    | none => .done ⟨[], .error (failPath nodeId (.nodeNotFound nodeId) c)⟩
    | some node =>
      if c.hasExecuted nodeId then .done ⟨[], .ok c⟩
      else
        .askClock fun startedAt =>
          .askHere (.isStopped c.executionId) fun stopped =>
            if stopped then
              w.proceed (w.visit room) node c startedAt startedAt ⟨[], .error .cancelled⟩
            else
              (w.execute (w.visit room) node c startedAt).bind fun executed =>
                .askClock fun finishedAt =>
                  w.proceed (w.visit room) node c startedAt finishedAt executed

/-- Walks from the trigger of the workflow.  A workflow that cannot run fails at no node. -/
def start (w : Walk H) (c : Context) : Proc (Call H) Visited :=
  match w.workflow.order with
  | .error e => .done ⟨[], .error (failPath "" (.graph e) c)⟩
  | .ok _ =>
    match w.workflow.nodes.find? fun n => n.type = .trigger with
    | none => .done ⟨[], .error ⟨"", .graph .missingTrigger, c⟩⟩
    | some trigger => w.visit w.workflow.nodes.length trigger.id c

end Walk

end Workflow
