import Workflow.Condition
import Workflow.Context
import Workflow.Text.Slug

/-!
# Definitions

What a workflow is: how it is started, the nodes of its graph and the edges between
them, its variables, and its identity.
-/

namespace Workflow

inductive Trigger where
  | manual
  | webhook
  | schedule (cron : String)
  | event (name : String)
  deriving Repr, DecidableEq

/-- The ways to start a workflow. -/
inductive TriggerKind where
  | manual
  | webhook
  | schedule
  | event
  deriving Repr, DecidableEq

def TriggerKind.name : TriggerKind → String
  | .manual => "manual"
  | .webhook => "webhook"
  | .schedule => "schedule"
  | .event => "event"

def Trigger.kind : Trigger → TriggerKind
  | .manual => .manual
  | .webhook => .webhook
  | .schedule _ => .schedule
  | .event _ => .event

inductive NodeType where
  | trigger
  | primitive
  | condition
  | loop
  | delay
  | parallel
  | output
  deriving Repr, DecidableEq

namespace NodeType

def name : NodeType → String
  | .trigger => "trigger"
  | .primitive => "primitive"
  | .condition => "condition"
  | .loop => "loop"
  | .delay => "delay"
  | .parallel => "parallel"
  | .output => "output"

def names : List (String × NodeType) :=
  [("trigger", .trigger), ("primitive", .primitive), ("condition", .condition), ("loop", .loop),
    ("delay", .delay), ("parallel", .parallel), ("output", .output)]

end NodeType

structure Node where
  id : String
  type : NodeType
  name : Option String
  config : Json

/-- An edge of a graph.  The handle says which way out of the source it is: `true` or `false`
of a condition, `body` of a loop.  The guard must hold for the edge to be followed. -/
structure Edge where
  source : String
  target : String
  handle : Option String
  guard : Option Condition

/-- The graph of a workflow with its trigger and its variables. -/
structure Graph where
  trigger : Trigger
  nodes : List Node
  edges : List Edge
  bindings : Keyed Json

structure Definition where
  id : Uuid
  name : String
  slug : String
  trigger : Trigger
  nodes : List Node
  edges : List Edge
  bindings : Keyed Json
  enabled : Bool
  lastRunAt : Option Time.Instant

namespace Definition

/-- A workflow that has never run, under the slug of its name. -/
def create (id : Uuid) (name : String) (trigger : Trigger) (nodes : List Node)
    (edges : List Edge) : Definition :=
  { id, name, slug := Text.slug name, trigger, nodes, edges, bindings := [], enabled := true,
    lastRunAt := none }

def node? (d : Definition) (id : String) : Option Node := d.nodes.find? fun n => n.id = id

def outgoing (d : Definition) (id : String) : List Edge := d.edges.filter fun e => e.source = id

def graph (d : Definition) : Graph := ⟨d.trigger, d.nodes, d.edges, d.bindings⟩

/-- The workflow with the slug of its name if it has none. -/
def withSlug (d : Definition) : Definition :=
  if d.slug.isEmpty then { d with slug := Text.slug d.name } else d

end Definition

end Workflow
