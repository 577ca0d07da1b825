import Workflow.Definition.Basic

/-!
# Definitions as values

How workflows, their graphs and the parts of these are written as values and read from
them.
-/

namespace Workflow

def Trigger.toJson (t : Trigger) : Json :=
  let type : String × Json := ("type", .str t.kind.name)
  match t with
  | .manual => .ofPairs [type]
  | .webhook => .ofPairs [type]
  | .schedule cron => .ofPairs [type, ("cron", .str cron)]
  | .event name => .ofPairs [type, ("event", .str name)]

/-- A member that is left out if there is nothing to put there. -/
def Json.member? (key : String) : Option Json → List (String × Json)
  | some v => [(key, v)]
  | none => []

def Node.toJson (n : Node) : Json :=
  .ofPairs ([("id", .str n.id), ("type", .str n.type.name), ("config", n.config)] ++
    Json.member? "name" (n.name.map Json.str))

def Edge.toJson (e : Edge) : Json :=
  .ofPairs ([("source", .str e.source), ("target", .str e.target)] ++
    Json.member? "source_handle" (e.handle.map Json.str) ++
    Json.member? "condition" (e.guard.map Condition.toJson))

def Graph.members (g : Graph) : List (String × Json) :=
  [("trigger", g.trigger.toJson), ("nodes", .arr (g.nodes.map Node.toJson)),
    ("edges", .arr (g.edges.map Edge.toJson)), ("variables", .obj g.bindings)]

def Graph.toJson (g : Graph) : Json := .ofPairs g.members

def Definition.toJson (d : Definition) : Json :=
  .ofPairs ([("id", .str d.id.text), ("name", .str d.name), ("slug", .str d.slug),
    ("enabled", .bool d.enabled),
    ("last_run_at", .ofText? (d.lastRunAt.map Time.Instant.text))] ++ d.graph.members)

open Json

def Trigger.decoder : Decoder Trigger :=
  Decoder.tagged "internally tagged enum Trigger" "type"
    [("manual", Decoder.bare .manual), ("webhook", Decoder.bare .webhook),
      ("schedule", Record.decoder "struct variant Trigger::Schedule"
        (Trigger.schedule <$> Record.required "cron" Decoder.text)),
      ("event", Record.decoder "struct variant Trigger::Event"
        (Trigger.event <$> Record.required "event" Decoder.text))]

def Node.decoder : Decoder Node :=
  Record.decoder "struct WorkflowNode" <|
    Node.mk <$> Record.required "id" Decoder.text
      <*> Record.required "type" (Decoder.name NodeType.names)
      <*> Record.optional "name" Decoder.text
      <*> Record.defaulted "config" Decoder.json .null

def Edge.decoder : Decoder Edge :=
  Record.decoder "struct WorkflowEdge" <|
    Edge.mk <$> Record.required "source" Decoder.text
      <*> Record.required "target" Decoder.text
      <*> Record.optional "source_handle" Decoder.text
      <*> Record.optional "condition" Condition.decoder

def Graph.decoder : Decoder Graph :=
  Record.decoder "struct GraphDocument" <|
    Graph.mk <$> Record.required "trigger" Trigger.decoder
      <*> Record.defaulted "nodes" (Decoder.list Node.decoder) []
      <*> Record.defaulted "edges" (Decoder.list Edge.decoder) []
      <*> Record.defaulted "variables" (Decoder.keyed Decoder.json) []

def Definition.decoder (fresh : Uuid) : Decoder Definition :=
  Record.decoder "struct WorkflowDefinition" <|
    Definition.mk <$> Record.defaulted "id" Decoder.uuid fresh
      <*> Record.required "name" Decoder.text
      <*> Record.defaulted "slug" Decoder.text ""
      <*> Record.required "trigger" Trigger.decoder
      <*> Record.required "nodes" (Decoder.list Node.decoder)
      <*> Record.defaulted "edges" (Decoder.list Edge.decoder) []
      <*> Record.defaulted "variables" (Decoder.keyed Decoder.json) []
      <*> Record.defaulted "enabled" Decoder.bool true
      <*> Record.optional "last_run_at" Decoder.instant

end Workflow
