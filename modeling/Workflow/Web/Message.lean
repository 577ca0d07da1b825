import Workflow.Json.Decoder
import Workflow.Web.MediaType

/-!
# Requests to the service

What the service is sent and what it answers.  The body of a request is read as data only
if its type says that it is; a body that cannot be read counts as none.  What stands behind
the data is not looked at.
-/

namespace Workflow.Web

/-- A request.  The path may end in a query, which the service does not look at. -/
structure Request where
  method : String
  path : String
  contentType : Option String
  body : String

inductive Body where
  | empty
  | text (s : String)
  | data (v : Json)

structure Response where
  status : Nat
  body : Body

def bodyLimit : Nat := 2097152

def Request.data? {α : Type} (r : Request) (decode : Json.Decoder α) : Option α :=
  let isData := (r.contentType.bind MediaType.parse?).any MediaType.isData
  if isData && r.body.utf8ByteSize ≤ bodyLimit then
    (Json.Decoder.ofStart decode r.body).toOption
  else none

def Body.render : Body → String
  | .empty => ""
  | .text s => s
  | .data v => v.text

end Workflow.Web
