import Workflow.Command.Report
import Workflow.Primitive.Builtin
import Workflow.Run.Entry
import Workflow.Store.Address
import Workflow.Store.Database
import Workflow.Store.Memory
import Workflow.Store.Migration
import Workflow.Web.Service

/-!
# What commands do

A command becomes a job: a report that is ready, a process that runs on a store in memory
or in a database, a statement that is sent to a database, or a service that listens.
-/

namespace Workflow

/-- What is to be done for a command. -/
inductive Job (H : Type) : Type 1 where
  | report (r : Report)
  | inMemory (store : Memory) (body : Proc (Call H) Report)
  | onDatabase (pool : Sql.PoolConfig) (body : Proc (Call H) Report)
  | send (pool : Sql.PoolConfig) (statement : Sql.Statement)
      (read : Except String Sql.Reply → Report)
  | listen (pool : Sql.PoolConfig) (bind : String) (engine : Engine H)

namespace Job

variable {H : Type}

/-- What a command may look at: the environment, the files, identifiers that nothing has, and
the instant. -/
structure Surroundings where
  environment : Environment
  file : String → Except String String
  fresh : Nat → Uuid
  now : Time.Instant

def reserved : Nat := 3

def readWorkflow (s : Surroundings) (path : String) : Except Report Definition :=
  match s.file path with
  | .error cause => .error (.failure ["cannot read file " ++ path, cause])
  | .ok text =>
    match Json.Decoder.ofText (Definition.decoder (s.fresh 0)) text with
    | .error cause => .error (.failure ["invalid workflow JSON in " ++ path, cause])
    | .ok d => .ok d.withSlug

def engine (s : Surroundings) (allowed : List String) : Engine H :=
  .create (Builtin.register []) s.environment
    { EngineConfig.standard with environmentNames := allowed }

def orderText (ids : List String) : String :=
  "[" ++ ", ".intercalate (ids.map Text.quoted) ++ "]"

def validate (s : Surroundings) (path : String) : Report :=
  match readWorkflow s path with
  | .error r => r
  | .ok d =>
    match d.order with
    | .ok ids => .success ("Workflow is valid. Execution order: " ++ orderText ids ++ "\n")
    | .error e => .failure ["validation failed: " ++ e.message]

def withPool (pool : Sql.PoolConfig) (job : Job H) : Job H :=
  match Sql.reachable pool.address with
  | .error e => .report (.failure e.chain)
  | .ok () => job

def smallPool (address : String) : Sql.PoolConfig :=
  { Sql.PoolConfig.standard address with maxConnections := Sql.fewConnections }

def store (s : Surroundings) (path address : String) : Job H :=
  match readWorkflow s path with
  | .error r => .report r
  | .ok d =>
    match d.order with
    | .error e => .report (.failure ["refusing to import an invalid workflow", e.message])
    | .ok _ =>
      withPool (smallPool address) <|
        .send (smallPool address) (Sql.insertWorkflow (d.toRow s.now)) fun reply =>
          match Sql.accepted reply >>= Sql.onlyRow Sql.readWorkflow with
          | .error e => .failure e.chain
          | .ok row =>
            .success
              ("imported " ++ row.name ++ " (" ++ row.id.text ++ ") as /" ++ row.slug ++ "\n")

/-- The payload of a run, an empty object if none is given. -/
def payload : Option String → Except Report Json
  | none => .ok (.obj [])
  | some text => (Json.read text).mapError fun cause =>
    .failure ["--payload is not valid JSON", cause]

def ran : Except RunError Outcome → Report
  | .error e => .failure e.chain
  | .ok o => ⟨if o.succeeded then 0 else 1, o.toJson.prettyText ++ "\n", ""⟩

def run (s : Surroundings) (path : String) (text : Option String) (allowed : List String) :
    Job H :=
  match readWorkflow s path with
  | .error r => .report r
  | .ok d =>
    match payload text with
    | .error r => .report r
    | .ok v =>
      let builtins := [Builtin.httpRequestRow (s.fresh 1) s.now, Builtin.logRow (s.fresh 2) s.now]
      let rows := (builtins.foldl Memory.putPrimitive .empty).putWorkflow (d.toRow s.now)
      .inMemory rows <|
        ((engine s allowed).execute d.id (.plain d.trigger.kind v)).bind fun ended =>
          .done (ran ended)

def tickLine (o : Outcome) : String :=
  o.workflowId.text ++ " " ++ o.executionId.text ++ " " ++ o.status.name ++ "\n"

def tick (s : Surroundings) : Proc (Call H) Report :=
  .askClock fun now =>
    ((engine s []).runDueSchedules now).bind fun ended =>
      .done <|
        match ended with
        | .error e => .failure e.chain
        | .ok outcomes => .success (String.join (outcomes.map tickLine))

def badBind? (bind : String) : Option String :=
  match Http.cutLast ':' bind.toList with
  | none => some "invalid socket address"
  | some (_, port) =>
    if port.isEmpty || (Http.port? port).isNone then some "invalid port value" else none

def ofCommand (s : Surroundings) : Command → Job H
  | .validate path => .report (validate s path)
  | .store path address => store s path address
  | .run path text allowed => run s path text allowed
  | .tick address =>
    withPool (.standard address) (.onDatabase (.standard address) (tick s))
  | .migrate address =>
    withPool (smallPool address) <|
      .send (smallPool address) (.script Sql.migration) fun reply =>
        match Sql.migrated reply with
        | .error e => .failure e.chain
        | .ok () => .success ""
  | .serve bind address allowed =>
    withPool (.standard address) <|
      match badBind? bind with
      | some message => .report (.failure [message])
      | none => .listen (.standard address) bind (engine s allowed)

def ofArgs (s : Surroundings) (args : List String) : Job H :=
  match Command.parse s.environment args with
  | .error e => .report (.ofArgsError s.environment e)
  | .ok command => ofCommand s command

end Job

end Workflow
