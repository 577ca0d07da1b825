import Workflow.Http.Client
import Workflow.Primitive.Registry

/-!
# Primitives that are always there

One primitive sends a request over the network, and one writes a message to the log.
Their handlers stand for all versions.
-/

namespace Workflow.Builtin

variable {H : Type}

def httpRequest : String := "http_request"

def log : String := "log"

def httpRequestHandler : Handler H := fun _ input =>
  match Json.Decoder.ofValue Http.FetchRequest.decoder input with
  | .error message => .done (.error (.failed ("invalid request: " ++ message)))
  | .ok request =>
    (Http.fetch (fun r => .ask (.exchange r) .done) request).bind fun fetched =>
      match fetched with
      | .error e => .done (.error (.fetch e.message))
      | .ok response => .done (.ok response.toJson)

/-- The message in an input: a text, or the text of any other value. -/
def messageOf (input : Json) : String :=
  match input.field? "message" with
  | some (.str s) => s
  | some v => v.text
  | none => ""

/-- Writes the message of the input to the log, and gives it back.  The log is no part of
what a workflow can see. -/
def logHandler : Handler H := fun _ input =>
  .done (.ok (.ofPairs [("logged", .bool true), ("message", .str (messageOf input))]))

def register (r : Registry H) : Registry H :=
  Registry.register log anyVersion logHandler
    (Registry.register httpRequest anyVersion httpRequestHandler r)

def field (type : String) (allowed : List String) : Json :=
  .ofPairs ([("type", .str type)] ++
    if allowed.isEmpty then [] else [("enum", .arr (allowed.map Json.str))])

def httpRequestRow (id : Uuid) (createdAt : Time.Instant) : PrimitiveRow :=
  { id
    name := httpRequest
    category := "integration"
    inputSchema := .ofPairs
      [("url", .ofPairs [("type", .str "string"), ("required", .bool true)]),
        ("method", field "string" ["GET", "POST", "PUT", "PATCH", "DELETE"]),
        ("headers", field "object" [])]
    timeoutMs := 30000
    enabled := true
    version := "1"
    createdAt }

def logRow (id : Uuid) (createdAt : Time.Instant) : PrimitiveRow :=
  { id
    name := log
    category := "utility"
    inputSchema := .ofPairs
      [("message", .ofPairs [("required", .bool true)]),
        ("level", field "string" ["info", "error"])]
    timeoutMs := 1000
    enabled := true
    version := "1"
    createdAt }

end Workflow.Builtin
