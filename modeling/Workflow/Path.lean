import Workflow.Json.Printer
import Workflow.Text.Class
import Workflow.Time.Instant

/-!
# Paths

A path such as `trigger.order.items.0.sku` names a root and the steps from there into
its value.  The roots are the payload that triggered a run, under two names, the
variables, and the outputs of the nodes that have run.
-/

namespace Workflow

/-- The names that paths begin with. -/
inductive Root where
  | trigger
  | event
  | bindings
  | nodes
  deriving Repr, DecidableEq

namespace Root

def all : List Root := [.trigger, .event, .bindings, .nodes]

def name : Root → String
  | .trigger => "trigger"
  | .event => "event"
  | .bindings => "variables"
  | .nodes => "nodes"

def ofName? (s : String) : Option Root := all.find? fun r => r.name = s

end Root

/-- What paths and expressions can see, and the instant at which they look. -/
structure Scope where
  trigger : Json
  bindings : Keyed Json
  nodes : Keyed Json
  now : Time.Instant := ⟨0, 0⟩

def Scope.root (scope : Scope) : Root → Json
  | .trigger => scope.trigger
  | .event => scope.trigger
  | .bindings => .obj scope.bindings
  | .nodes => .obj scope.nodes

/-- The index that a segment of a path stands for: decimal digits, with an optional plus
sign, below `2 ^ 64`. -/
def index? (segment : String) : Option Nat :=
  let digits := match segment.toList with
    | '+' :: rest => rest
    | cs => cs
  if digits.isEmpty || !digits.all Char.isDigit then none
  else
    let n := digits.foldl (fun n d => 10 * n + (d.toNat - '0'.toNat)) 0
    if n < Nat.pow 2 64 then some n else none

namespace Json

/-- One step into a value: the member of an object, or the item of an array at an
index. -/
def step (segment : String) : Json → Option Json
  | .obj fields => Keyed.get? segment fields
  | .arr items => (index? segment).bind fun i => items[i]?
  | _ => none

def walk : List String → Json → Option Json
  | [], v => some v
  | segment :: rest, v => (step segment v).bind (walk rest)

end Json

/-- The value a path leads to.  White space around the path does not count. -/
def Scope.resolve (scope : Scope) (path : String) : Option Json :=
  match Text.splitAt '.' (Text.trim path) with
  | [] => none
  | name :: segments => (Root.ofName? name).bind fun root => (scope.root root).walk segments

end Workflow
