import Workflow.Definition.Codec
import Workflow.Store.Row

/-!
# Definitions as rows

A workflow is stored as a row whose document is its graph.  The kind of its trigger
stands beside it, so that a store can look for it.
-/

namespace Workflow.Definition

def toRow (d : Definition) (createdAt : Time.Instant) : WorkflowRow :=
  { id := d.id
    name := d.name
    slug := d.slug
    definition := d.graph.toJson
    enabled := d.enabled
    triggerType := d.trigger.kind.name
    lastRunAt := d.lastRunAt
    createdAt }

def ofGraph (row : WorkflowRow) (g : Graph) : Definition :=
  { id := row.id
    name := row.name
    slug := row.slug
    trigger := g.trigger
    nodes := g.nodes
    edges := g.edges
    bindings := g.bindings
    enabled := row.enabled
    lastRunAt := row.lastRunAt }

def ofRow (row : WorkflowRow) : Except String Definition :=
  match Json.Decoder.ofValue Graph.decoder row.definition with
  | .ok g => .ok (ofGraph row g)
  | .error message => .error ("workflow '" ++ row.slug ++ "': " ++ message)

end Workflow.Definition
