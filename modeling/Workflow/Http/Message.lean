import Workflow.Http.Url
import Workflow.Json.Decoder

/-!
# Messages

What a primitive asks for when it fetches a resource, the request that is sent for it,
the response that comes back, and what the primitive is given of that.
-/

namespace Workflow.Http

/-- What is to be fetched.  A body that is a text is sent as it is, any other value as its
compact text. -/
structure FetchRequest where
  method : String
  url : String
  headers : Keyed String
  body : Option Json

structure FetchResponse where
  status : Nat
  headers : Keyed String
  body : Json

/-- A request.  The names of its headers are in lower case. -/
structure Request where
  method : String
  url : Url
  headers : List (String × String)
  body : String

/-- A response.  It is not complete if the connection ended before the whole body came. -/
structure Response where
  status : Nat
  headers : List (String × String)
  body : List UInt8
  complete : Bool

inductive FetchError where
  | invalidMethod (method : String)
  | invalidUrl
  | invalidHeader
  | refusedUrl (url : String)
  | unreachable (url : String)
  | tooManyRedirects (url : String)
  | brokenBody
  deriving Repr, DecidableEq

def FetchError.message : FetchError → String
  | .invalidMethod method => "invalid HTTP method '" ++ method ++ "'"
  | .invalidUrl => "builder error"
  | .invalidHeader => "builder error"
  | .refusedUrl url => "builder error for url (" ++ url ++ ")"
  | .unreachable url => "error sending request for url (" ++ url ++ ")"
  | .tooManyRedirects url => "error following redirect for url (" ++ url ++ ")"
  | .brokenBody => "failed to read response: error decoding response body"

def FetchRequest.toJson (r : FetchRequest) : Json :=
  .ofPairs
    [("method", .str r.method), ("url", .str r.url),
      ("headers", .obj (Keyed.mapValues Json.str r.headers)), ("body", .ofOption r.body)]

def FetchResponse.toJson (r : FetchResponse) : Json :=
  .ofPairs
    [("status", .ofNat r.status), ("headers", .obj (Keyed.mapValues Json.str r.headers)),
      ("body", r.body)]

open Json in
def FetchRequest.decoder : Decoder FetchRequest :=
  Record.decoder "struct FetchRequest" <|
    FetchRequest.mk <$> Record.defaulted "method" Decoder.text "GET"
      <*> Record.required "url" Decoder.text
      <*> Record.defaulted "headers" (Decoder.keyed Decoder.text) []
      <*> Record.optional "body" Decoder.json

end Workflow.Http
