import Workflow.Http.Message
import Workflow.Json.Printer
import Workflow.Process.Basic
import Workflow.Text.Base64

/-!
# Fetching

A request is put together and sent.  When the response says that the resource is
elsewhere, the request is sent there, with what that kind of response leaves of it.
-/

namespace Workflow.Http

def tokenMarks : List Char :=
  ['!', '#', '$', '%', '&', '\'', '*', '+', '-', '.', '^', '_', Char.ofNat 0x60, '|', '~']

def isMethod (s : String) : Bool :=
  !s.isEmpty && s.toList.all fun c => c.isAlphanum || tokenMarks.contains c

def isHeaderName (s : String) : Bool :=
  !s.isEmpty && s.toList.all fun c => c.isAlphanum || c = '"' || tokenMarks.contains c

def isHeaderValue (s : String) : Bool :=
  s.toList.all fun c => c = '\t' || (0x20 ≤ c.toNat && c.toNat != 0x7f)

def hasHeader (name : String) (headers : List (String × String)) : Bool :=
  headers.any fun h => h.1 = name

def setHeader (name value : String) (headers : List (String × String)) : List (String × String) :=
  headers.filter (fun h => h.1 != name) ++ [(name, value)]

/-- The headers with one more, unless the name is there already. -/
def defaultHeader (name value : String) (headers : List (String × String)) :
    List (String × String) :=
  if hasHeader name headers then headers else headers ++ [(name, value)]

def loginHeader (u : Url) : List (String × String) :=
  let decode (s : String) : List UInt8 := Text.percentDecode s.toList
  if u.user.isEmpty && u.password.isNone then []
  else
    [("authorization", "Basic " ++
      String.ofList (Text.base64 (decode u.user ++ 0x3a :: decode (u.password.getD ""))))]

def isFetched (u : Url) : Bool := u.scheme = "http" || u.scheme = "https"

/-- The text of a body, and whether it is the text of a value. -/
def bodyText : Option Json → String × Bool
  | none => ("", false)
  | some (.str s) => (s, false)
  | some v => (v.text, true)

def prepare (r : FetchRequest) : Except FetchError Request :=
  let method := Text.upper r.method
  if !isMethod method then .error (.invalidMethod r.method)
  else
    match readAddress none r.url with
    | none => .error .invalidUrl
    | some (.other text) => .error (.refusedUrl text)
    | some (.url url) =>
      if r.headers.any fun h => !isHeaderName h.1 || !isHeaderValue h.2 then .error .invalidHeader
      else if !isFetched url then .error (.refusedUrl url.withoutLogin.text)
      else
        let (body, isValue) := bodyText r.body
        let headers := loginHeader url ++ r.headers.map fun h => (Text.lowerAscii h.1, h.2)
        let headers := if isValue then defaultHeader "content-type" "application/json" headers
          else headers
        .ok ⟨method, url.withoutLogin, defaultHeader "accept" "*/*" headers, body⟩

/-- The headers that are sent: those of the request, and the length of its body if it has
one. -/
def Request.sentHeaders (r : Request) : List (String × String) :=
  if r.body.isEmpty then r.headers
  else setHeader "content-length" (Decimal.intText r.body.utf8ByteSize) r.headers

/-- A value of a header without the blanks around it. -/
def trimValue (s : String) : String :=
  let trim (cs : List Char) : List Char := cs.dropWhile fun c => c = ' ' || c = '\t'
  String.ofList (trim (trim s.toList).reverse).reverse

/-- A value of a header as it is shown: one with other than visible characters is empty. -/
def shownValue (s : String) : String :=
  if s.toList.all fun c => c = '\t' || (0x20 ≤ c.toNat && c.toNat < 0x7f) then s else ""

def hasNoBody (method : String) (status : Nat) : Bool :=
  method = "HEAD" || status / 100 = 1 || status = 204 || status = 304

/-- What a response gives.  Of a header that is repeated the last value counts; a body that
is the text of a value is that value. -/
def Response.read (method : String) (r : Response) : Except FetchError FetchResponse :=
  let headers := Keyed.ofList (r.headers.map fun h =>
    (Text.lowerAscii h.1, shownValue (trimValue h.2)))
  if hasNoBody method r.status then .ok ⟨r.status, headers, .str ""⟩
  else if !r.complete then .error .brokenBody
  else
    let text := Text.decodeLossy r.body
    .ok ⟨r.status, headers, (Json.read text).toOption.getD (.str text)⟩

/-! ### Redirects -/

/-- Whether a text has only characters that a reference may have. -/
def isReference : List Char → Bool
  | [] => true
  | '%' :: a :: b :: rest =>
    (Text.hexDigit? a).isSome && (Text.hexDigit? b).isSome && isReference rest
  | c :: rest =>
    (c.isAlphanum || "-._~:/?#@!$&'()*+,;=".toList.contains c) && isReference rest

def bodyHeaders : List String :=
  ["content-type", "content-length", "content-encoding", "transfer-encoding"]

/-- Headers that another host must not see. -/
def secretHeaders : List String :=
  ["authorization", "cookie", "cookie2", "proxy-authorization", "www-authenticate"]

def Response.location? (base : Url) (r : Response) : Option Url := do
  let (_, value) ← r.headers.find? fun h => Text.lowerAscii h.1 = "location"
  let value := trimValue value
  if isReference value.toList then
    match ← readAddress (some base) value with
    | .url u => some u
    | .other _ => none
  else none

/-- Whether a response that points elsewhere asks for a request without a body. -/
def dropsBody (status : Nat) (method : String) : Bool :=
  ((status = 301 || status = 302) && method = "POST") || (status = 303 && method != "HEAD")

/-- The request that a response asks for, if it points elsewhere. -/
def redirected? (r : Request) (res : Response) : Option Request :=
  if [301, 302, 303, 307, 308].contains res.status then
    (res.location? r.url).map fun next =>
      let r := if dropsBody res.status r.method then
          { r with
            method := "GET"
            headers := r.headers.filter fun h => !bodyHeaders.contains h.1
            body := "" }
        else r
      let headers :=
        if next.scheme = "http" && r.url.scheme = "https" then r.headers
        else setHeader "referer" r.url.withoutLogin.withoutFragment.text r.headers
      let headers :=
        if next.host = r.url.host && next.reachedPort = r.url.reachedPort then headers
        else headers.filter fun h => !secretHeaders.contains h.1
      { r with url := next, headers }
  else none

variable {E : Type → Type 1}

/-- Sends a request, and follows at most `redirects` responses that point elsewhere. -/
def follow (exchange : Request → Proc E (Option Response)) (first : Url) :
    Nat → Request → Proc E (Except FetchError FetchResponse)
  | redirects, r =>
    (exchange r).bind fun response =>
      match response with
      | none => .done (.error (.unreachable first.text))
      | some response =>
        match redirected? r response, redirects with
        | none, _ => .done (response.read r.method)
        | some _, 0 => .done (.error (.tooManyRedirects r.url.text))
        | some next, redirects + 1 =>
          if isFetched next.url then follow exchange first redirects next
          else .done (.error (.refusedUrl next.url.text))

def redirectLimit : Nat := 10

def fetch (exchange : Request → Proc E (Option Response)) (r : FetchRequest) :
    Proc E (Except FetchError FetchResponse) :=
  match prepare r with
  | .error e => .done (.error e)
  | .ok request => follow exchange request.url redirectLimit request

end Workflow.Http
