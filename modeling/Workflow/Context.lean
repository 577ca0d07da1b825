import Workflow.Json.Decoder
import Workflow.Path
import Workflow.Uuid

/-!
# Contexts

What is known at a point of a run: the payload, the variables, the outputs of the nodes
that have run, their order, and the failures so far.  A context is a value; each update
gives a new one.
-/

namespace Workflow

structure NodeError where
  nodeId : String
  message : String
  deriving DecidableEq, Repr

/-- What is known at a point of a run. -/
structure Context where
  executionId : Uuid
  workflowId : Uuid
  startedAt : Time.Instant
  trigger : Json
  bindings : Keyed Json
  outputs : Keyed Json
  executed : List String
  errors : List NodeError

namespace Context

def start (executionId workflowId : Uuid) (startedAt : Time.Instant) (trigger : Json)
    (bindings : Keyed Json) : Context :=
  ⟨executionId, workflowId, startedAt, trigger, bindings, [], [], []⟩

def scope (c : Context) (now : Time.Instant) : Scope := ⟨c.trigger, c.bindings, c.outputs, now⟩

def binding? (c : Context) (name : String) : Option Json := Keyed.get? name c.bindings

def output? (c : Context) (nodeId : String) : Option Json := Keyed.get? nodeId c.outputs

def hasExecuted (c : Context) (nodeId : String) : Bool := c.executed.contains nodeId

/-- The output of the node that ran last, unless it is among the first `baseline` ones. -/
def lastOutputSince (c : Context) (baseline : Nat) : Option Json :=
  (c.executed.drop baseline).getLast?.bind fun id => Keyed.get? id c.outputs

def withOutput (c : Context) (nodeId : String) (output : Json) : Context :=
  { c with outputs := Keyed.insert nodeId output c.outputs, executed := c.executed ++ [nodeId] }

def withVariable (c : Context) (name : String) (value : Json) : Context :=
  { c with bindings := Keyed.insert name value c.bindings }

def withError (c : Context) (nodeId message : String) : Context :=
  { c with errors := c.errors ++ [⟨nodeId, message⟩] }

def withItem (c : Context) (itemVariable : String) (item : Json) (indexVariable : Option String)
    (index : Nat) : Context :=
  let bound := c.withVariable itemVariable item
  match indexVariable with
  | some name => bound.withVariable name (.ofNat index)
  | none => bound

end Context

def NodeError.toJson (e : NodeError) : Json :=
  .ofPairs [("node_id", .str e.nodeId), ("message", .str e.message)]

def Context.toJson (c : Context) : Json :=
  .ofPairs
    [("execution_id", .str c.executionId.text), ("workflow_id", .str c.workflowId.text),
      ("started_at", .str c.startedAt.text), ("trigger", c.trigger), ("variables", .obj c.bindings),
      ("node_outputs", .obj c.outputs), ("executed_nodes", .arr (c.executed.map Json.str)),
      ("errors", .arr (c.errors.map NodeError.toJson))]

namespace Json.Decoder

def uuid : Decoder Uuid := parsed "a formatted UUID string" Uuid.parse

def instant : Decoder Time.Instant :=
  parsed "an RFC 3339 formatted date and time string" Time.Instant.parse

end Json.Decoder

open Json in
def NodeError.decoder : Decoder NodeError :=
  Record.decoder "struct ContextError" <|
    NodeError.mk <$> Record.required "node_id" Decoder.text
      <*> Record.required "message" Decoder.text

open Json in
def Context.decoder : Decoder Context :=
  Record.decoder "struct ExecutionContext" <|
    Context.mk <$> Record.required "execution_id" Decoder.uuid
      <*> Record.required "workflow_id" Decoder.uuid
      <*> Record.required "started_at" Decoder.instant
      <*> Record.required "trigger" Decoder.json
      <*> Record.required "variables" (Decoder.keyed Decoder.json)
      <*> Record.required "node_outputs" (Decoder.keyed Decoder.json)
      <*> Record.required "executed_nodes" (Decoder.list Decoder.text)
      <*> Record.required "errors" (Decoder.list NodeError.decoder)

end Workflow
