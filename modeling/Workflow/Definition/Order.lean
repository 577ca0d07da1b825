import Workflow.Definition.Basic

/-!
# The order of a graph

A workflow can run if its nodes have different identifiers, its edges join nodes, one
node is the trigger, and no path comes back to where it began.  Then its nodes are put
in an order in which every edge points forward: nodes are taken as soon as no edge from
a node that is not yet taken leads to them.
-/

namespace Workflow

inductive Side where
  | source
  | target
  deriving Repr, DecidableEq

inductive GraphError where
  | duplicateNode (id : String)
  | unknownNode (id : String) (side : Side)
  | missingTrigger
  | multipleTriggers (count : Nat)
  | cycle
  deriving Repr, DecidableEq

def GraphError.message : GraphError → String
  | .duplicateNode id => "duplicate node ID: '" ++ id ++ "'"
  | .unknownNode id side =>
    "edge references unknown node '" ++ id ++ "' (" ++
      (match side with
        | .source => "source"
        | .target => "target") ++ " side)"
  | .missingTrigger => "workflow has no trigger node"
  | .multipleTriggers count =>
    "workflow has " ++ Decimal.intText count ++ " trigger nodes, expected exactly one"
  | .cycle => "workflow graph contains a cycle"

namespace Graph

/-- The first item of a list that occurs before, given the items already seen. -/
def repeated? (seen : List String) : List String → Option String
  | [] => none
  | id :: rest => if id ∈ seen then some id else repeated? (id :: seen) rest

/-- The first end of an edge that is not among the nodes. -/
def dangling? (ids : List String) : List Edge → Option (String × Side)
  | [] => none
  | e :: rest =>
    if e.source ∉ ids then some (e.source, .source)
    else if e.target ∉ ids then some (e.target, .target)
    else dangling? ids rest

def inDegree (edges : List Edge) (id : String) : Nat := edges.countP fun e => e.target = id

def successors (edges : List Edge) (id : String) : List String :=
  (edges.filter fun e => e.source = id).map Edge.target

abbrev Degrees := List (String × Nat)

def Degrees.lower (id : String) : Degrees → Degrees
  | [] => []
  | (k, n) :: rest => if k = id then (k, n - 1) :: rest else (k, n) :: lower id rest

def Degrees.count (id : String) (degrees : Degrees) : Nat := (degrees.lookup id).getD 0

/-- Counts off the edges to a list of nodes, and gives those that have none left. -/
def release : List String → Degrees → List String × Degrees
  | [], degrees => ([], degrees)
  | id :: rest, degrees =>
    let degrees := degrees.lower id
    let (free, after) := release rest degrees
    (if degrees.count id = 0 then id :: free else free, after)

/-- Takes nodes from a queue, at most `fuel` of them, and puts those that become free at its
end. -/
def sort (edges : List Edge) : Nat → List String → Degrees → List String
  | 0, _, _ => []
  | _ + 1, [], _ => []
  | fuel + 1, id :: queue, degrees =>
    let (free, degrees) := release (successors edges id) degrees
    id :: sort edges fuel (queue ++ free) degrees

def sorted (nodes : List Node) (edges : List Edge) : List String :=
  let ids := nodes.map Node.id
  let degrees := ids.map fun id => (id, inDegree edges id)
  sort edges ids.length (ids.filter fun id => inDegree edges id = 0) degrees

end Graph

/-- The order of the nodes of a workflow, or the first reason why it cannot run. -/
def Definition.order (d : Definition) : Except GraphError (List String) :=
  let ids := d.nodes.map Node.id
  match Graph.repeated? [] ids with
  | some id => .error (.duplicateNode id)
  | none =>
    match Graph.dangling? ids d.edges with
    | some (id, side) => .error (.unknownNode id side)
    | none =>
      match d.nodes.countP fun n => n.type = .trigger with
      | 0 => .error .missingTrigger
      | 1 =>
        let order := Graph.sorted d.nodes d.edges
        if order.length = d.nodes.length then .ok order else .error .cycle
      | count => .error (.multipleTriggers count)

end Workflow
