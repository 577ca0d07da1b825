import Workflow.Text.Class
import Workflow.Text.Percent

/-!
# Routes

The paths that the service knows.  Parts of a path that stand for something are percent-
encoded.
-/

namespace Workflow.Web

/-- What a path asks for, with the part of it that names the thing. -/
inductive Route where
  | execute (id : String)
  | webhook (slug : String)
  | event (name : String)
  | execution (id : String)
  | cancel (id : String)
  deriving Repr, DecidableEq

namespace Route

/-- The route of a path, which ends where a query or a fragment begins.  The part that names a
thing is not empty. -/
def ofPath? (path : String) : Option Route :=
  let path := path.toList.takeWhile fun c => c != '?' && c != '#'
  let route? := match Text.splitAt '/' (String.ofList path) with
    | ["", "api", "v1", "workflows", id, "execute"] => some (Route.execute id, id)
    | ["", "api", "v1", "webhook", slug] => some (Route.webhook slug, slug)
    | ["", "api", "v1", "events", name] => some (Route.event name, name)
    | ["", "api", "v1", "executions", id] => some (Route.execution id, id)
    | ["", "api", "v1", "executions", id, "cancel"] => some (Route.cancel id, id)
    | _ => none
  match route? with
  | some (route, part) => if part.isEmpty then none else some route
  | none => none

def allows : Route → String → Bool
  | .execution _, method => method = "GET" || method = "HEAD"
  | _, method => method = "POST"

def part : Route → String × String
  | .execute id => ("id", id)
  | .webhook slug => ("slug", slug)
  | .event name => ("event", name)
  | .execution id => ("id", id)
  | .cancel id => ("id", id)

def decoded? (r : Route) : Option String := Text.decode? (Text.percentDecode r.part.2.toList)

end Route

end Workflow.Web
