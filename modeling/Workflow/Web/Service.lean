import Workflow.Run.Entry
import Workflow.Web.Message
import Workflow.Web.Route

/-!
# The service

What the service does for each route, and what it answers when that fails.  A request that
runs workflows is answered when their runs have ended.
-/

namespace Workflow.Web

/-- What is given to run a workflow by hand. -/
structure ExecuteRequest where
  input : Json
  bindings : Option (Keyed Json)
  userId : Option String
  agentId : Option String

open Json in
def ExecuteRequest.decoder : Decoder ExecuteRequest :=
  Record.decoder "struct ExecuteWorkflowDto" <|
    ExecuteRequest.mk <$> Record.defaulted "input" Decoder.json .null
      <*> Record.optional "variables" (Decoder.keyed Decoder.json)
      <*> Record.optional "user_id" Decoder.text
      <*> Record.optional "agent_id" Decoder.text

/-- The request to run a workflow.  An input that is null is an empty object. -/
def ExecuteRequest.toRun (r : ExecuteRequest) : RunRequest :=
  { triggeredBy := .manual
    userId := r.userId
    agentId := r.agentId
    payload := if r.input.isNull then .obj [] else r.input
    bindings := r.bindings }

def ExecuteRequest.empty : ExecuteRequest := ⟨.null, none, none, none⟩

def refusal (status : Nat) (message : String) : Response :=
  ⟨status, .data (.ofPairs [("error", .str message)])⟩

def status : RunError → Nat
  | .workflowNotFound _ => 404
  | .store .notFound => 404
  | .workflowDisabled _ => 409
  | .triggerMismatch _ _ _ => 400
  | .invalidDefinition _ => 422
  | _ => 500

def failed (e : RunError) : Response := refusal (status e) e.message

/-- The answer for an execution that is not there. -/
def noExecution (id : Uuid) : Response := refusal 404 ("execution not found: " ++ id.text)

def badPath (message : String) : Response := ⟨400, .text ("Invalid URL: " ++ message)⟩

def ok (v : Json) : Response := ⟨200, .data v⟩

def answered {α : Type} (f : α → Json) : Except RunError α → Response
  | .ok a => ok (f a)
  | .error e => failed e

def outcomes (os : List Outcome) : Json := .arr (os.map Outcome.toJson)

variable {H : Type}

def showExecution (id : Uuid) : Proc (Call H) Response :=
  (Engine.getExecution id).bind fun found =>
    .done <|
      match found with
      | .error e => failed e
      | .ok none => noExecution id
      | .ok (some row) => ok row.toJson

def cancelExecution (id : Uuid) : Proc (Call H) Response :=
  (Engine.getExecution id).bind fun found =>
    match found with
    | .error e => .done (failed e)
    | .ok none => .done (noExecution id)
    | .ok (some _) =>
      (Engine.cancel id).bind fun cancelled =>
        .done (answered (fun applied =>
          .ofPairs [("execution_id", id.toJson), ("cancelled", .bool applied)]) cancelled)

def withId (text : String) (f : Uuid → Proc (Call H) Response) : Proc (Call H) Response :=
  match Uuid.parse text with
  | .ok id => f id
  | .error message => .done (badPath message)

/-- The payload in a body, an empty object if there is none. -/
def payload (r : Request) : Json := (r.data? Json.Decoder.json).getD (.obj [])

/-- Does what a route asks for, given the part of the path that names the thing. -/
def serve (engine : Engine H) (r : Request) (route : Route) (part : String) :
    Proc (Call H) Response :=
  match route with
  | .execute _ =>
    withId part fun id =>
      let request := (r.data? ExecuteRequest.decoder).getD .empty
      (engine.execute id request.toRun).bind fun ended => .done (answered Outcome.toJson ended)
  | .webhook _ =>
    (engine.executeWebhook part (payload r)).bind fun ended =>
      .done (answered Outcome.toJson ended)
  | .event _ =>
    (engine.dispatchEvent part (payload r)).bind fun ended => .done (answered outcomes ended)
  | .execution _ => withId part showExecution
  | .cancel _ => withId part cancelExecution

def handle (engine : Engine H) (r : Request) : Proc (Call H) Response :=
  if r.method = "OPTIONS" then .done ⟨200, .empty⟩
  else
    match Route.ofPath? r.path with
    | none => .done ⟨404, .empty⟩
    | some route =>
      if !route.allows r.method then .done ⟨405, .empty⟩
      else
        match route.decoded? with
        | none => .done (badPath ("Invalid UTF-8 in `" ++ route.part.1 ++ "`"))
        | some part =>
          (serve engine r route part).bind fun response =>
            .done (if r.method = "HEAD" then { response with body := .empty } else response)

end Workflow.Web
