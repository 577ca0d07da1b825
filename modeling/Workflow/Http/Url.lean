import Workflow.Http.Host

/-!
# URLs

The address of a resource that is reached through a host: a scheme, a host with a port,
a path and a query.  A URL is read as browsers do: whatever can be put right is, so that
each URL has one text.  A reference may leave out the first parts, and is read beside a
base that has them.
-/

namespace Workflow.Http

/-- A URL with a host.  Its parts are percent-encoded, and a port that the scheme stands
for is left out. -/
structure Url where
  scheme : String
  user : String
  password : Option String
  host : String
  port : Option Nat
  path : List String
  query : Option String
  fragment : Option String
  deriving Repr, DecidableEq

/-- What a text may be read as: a URL with a host, or another address, of which only the text
is kept. -/
inductive Address where
  | url (u : Url)
  | other (text : String)
  deriving Repr, DecidableEq

def defaultPorts : List (String × Nat) :=
  [("http", 80), ("https", 443), ("ws", 80), ("wss", 443), ("ftp", 21)]

def fragmentReserved : List Char := [' ', '"', '<', '>', Char.ofNat 0x60]

def queryReserved : List Char := [' ', '"', '#', '<', '>', '\'']

def pathReserved : List Char := fragmentReserved ++ ['#', '?', '\x7b', '\x7d']

def userReserved : List Char :=
  pathReserved ++ ['/', ':', ';', '=', '@', '[', '\\', ']', '^', '|']

def isSlash (c : Char) : Bool := c = '/' || c = '\\'

def endsAuthority (c : Char) : Bool := isSlash c || c = '?' || c = '#'

/-- The parts of a list between items with a property: there is one part more than items. -/
def splitBy {α : Type} (p : α → Bool) : List α → List (List α)
  | [] => [[]]
  | a :: rest =>
    if p a then [] :: splitBy p rest
    else
      match splitBy p rest with
      | part :: parts => (a :: part) :: parts
      | [] => [[a]]

def port? (digits : List Char) : Option Nat :=
  if digits.all Char.isDigit then
    let n := digits.foldl (fun n c => n * 10 + (c.toNat - '0'.toNat)) 0
    if n < 65536 then some n else none
  else none

/-! ### Paths -/

def isSelf (part : String) : Bool := [".", "%2e"].contains (Text.lowerAscii part)

def isParent (part : String) : Bool :=
  ["..", ".%2e", "%2e.", "%2e%2e"].contains (Text.lowerAscii part)

/-- Puts the parts of a path behind one another.  Parts that stand for a place are followed;
as the last part they leave an empty one. -/
def followParts (path : List String) : List String → List String
  | [] => path
  | [part] =>
    if isParent part then path.dropLast ++ [""]
    else if isSelf part then path ++ [""]
    else path ++ [part]
  | part :: rest =>
    if isParent part then followParts path.dropLast rest
    else if isSelf part then followParts path rest
    else followParts (path ++ [part]) rest

def readPath (before : List String) (cs : List Char) : List String :=
  followParts before
    ((splitBy isSlash cs).map fun part => String.ofList (Text.percentEncode pathReserved part))

/-! ### Reading -/

def cutFragment (cs : List Char) : List Char × Option String :=
  match cs.span (· != '#') with
  | (before, _ :: fragment) =>
    (before, some (String.ofList (Text.percentEncode fragmentReserved fragment)))
  | (before, []) => (before, none)

/-- A text before the query, and the query, in which some characters are reserved. -/
def cutQueryWith (reserved : List Char) (cs : List Char) : List Char × Option String :=
  match cs.span (· != '?') with
  | (before, _ :: query) => (before, some (String.ofList (Text.percentEncode reserved query)))
  | (before, []) => (before, none)

def cutQuery (cs : List Char) : List Char × Option String := cutQueryWith queryReserved cs

def cutLast (mark : Char) (cs : List Char) : Option (List Char × List Char) :=
  match cs.reverse.span (· != mark) with
  | (after, _ :: before) => some (before.reverse, after.reverse)
  | (_, []) => none

def readUser (cs : List Char) : String × Option String :=
  let encode (cs : List Char) : String := String.ofList (Text.percentEncode userReserved cs)
  match cs.span (· != ':') with
  | (user, []) => (encode user, none)
  | (user, [_]) => (encode user, none)
  | (user, _ :: password) => (encode user, some (encode password))

/-- A host, and what follows it.  The colon of a port stands behind a closing bracket. -/
def cutPort (cs : List Char) : List Char × List Char :=
  match cs with
  | '[' :: _ =>
    let (inside, rest) := cs.span (· != ']')
    (inside ++ rest.take 1, rest.drop 1)
  | cs => cs.span (· != ':')

def readHost (scheme : String) (cs : List Char) : Option (String × Option Nat) :=
  let (host, port) := cutPort cs
  match port with
  | [] => (host? host).map fun h => (h, none)
  | ':' :: digits => do
    let h ← host? host
    let n ← port? digits
    some (h, if digits.isEmpty || defaultPorts.lookup scheme = some n then none else some n)
  | _ => none

def readAuthority (scheme : String) (cs : List Char) (fragment : Option String) : Option Url := do
  let (authority, rest) := cs.span fun c => !endsAuthority c
  let (user, password, place) := match cutLast '@' authority with
    | some (login, place) =>
      let (user, password) := readUser login
      (user, password, place)
    | none => ("", none, authority)
  let (host, port) ← readHost scheme place
  let (path, query) := cutQuery rest
  let path := match path with
    | c :: more => if isSlash c then more else path
    | [] => []
  some { scheme, user, password, host, port, path := readPath [] path, query, fragment }

def readBeside (base : Url) (cs : List Char) (fragment : Option String) : Option Url :=
  let (slashes, rest) := cs.span isSlash
  if slashes.length ≥ 2 then readAuthority base.scheme rest fragment
  else
    let (path, query) := cutQuery cs
    match path with
    | [] =>
      some { base with fragment, query := if cs.isEmpty then base.query else query }
    | c :: more =>
      let path := if isSlash c then readPath [] more else readPath base.path.dropLast path
      some { base with path, query, fragment }

def readScheme (cs : List Char) : Option (String × List Char) :=
  match cs.span (· != ':') with
  | (scheme, _ :: rest) =>
    if (scheme.head?.any Char.isAlpha) &&
        scheme.all (fun c => c.isAlphanum || c = '+' || c = '-' || c = '.') then
      some (String.ofList (scheme.map Char.toLower), rest)
    else none
  | _ => none

/-- A text without blanks around it, tabs and line ends. -/
def cleaned (s : String) : List Char :=
  let trim (cs : List Char) : List Char := cs.dropWhile fun c => c.toNat ≤ 0x20
  (trim (trim s.toList).reverse).reverse.filter fun c => c != '\t' && c != '\n' && c != '\r'

/-! ### Other schemes -/

/-- A part of an address behind its mark, if it is there. -/
def marked (mark : String) : Option String → String
  | some text => mark ++ text
  | none => ""

def loginText (user : String) (password : Option String) : String :=
  match password with
  | some p => user ++ ":" ++ p ++ "@"
  | none => if user.isEmpty then "" else user ++ "@"

def pathText (path : List String) : String := String.join (path.map ("/" ++ ·))

/-- A path of an address of another scheme, in which only one character is a slash. -/
def foreignPath (cs : List Char) : List String :=
  followParts []
    ((Text.splitChars '/' cs).map fun part => String.ofList (Text.percentEncode pathReserved part))

/-- A host of another scheme is kept as it is, unless it is an address in brackets. -/
def foreignHost? (cs : List Char) : Option String :=
  if cs.head? = some '[' then host? cs
  else if cs.any fun c => c != '%' && (c.toNat = 0 || hostForbidden.contains c) then none
  else some (String.ofList (Text.percentEncode [] cs))

/-- What stands between the slashes of an address of another scheme and its path. -/
def foreignAuthority? (cs : List Char) : Option String := do
  let (login, place) := match cutLast '@' cs with
    | some (login, place) =>
      let (user, password) := readUser login
      (some (loginText user password), place)
    | none => (none, cs)
  let (host, port) := cutPort place
  let text ← foreignHost? host
  if text.isEmpty && (login.isSome || !port.isEmpty) || (port.head?.any (· != ':')) then none
  let n ← port? (port.drop 1)
  some (login.getD "" ++ text ++ if port.length < 2 then "" else ":" ++ Decimal.intText n)

def foreignBody? : List Char → Option String
  | '/' :: '/' :: rest => do
    let (authority, path) := rest.span (· != '/')
    let text ← foreignAuthority? authority
    some ("//" ++ text ++ if path.isEmpty then "" else pathText (foreignPath (path.drop 1)))
  | '/' :: rest =>
    let path := foreignPath rest
    some ((if path.length > 1 && path.head? = some "" then "/." else "") ++ pathText path)
  | cs => some (String.ofList (Text.percentEncode [] cs))

/-- What follows the scheme of the address of a file, whose host may be left out. -/
def fileBody? (cs : List Char) : Option String := do
  let slashes := (cs.takeWhile isSlash).length
  let (authority, path) := if slashes < 2 then ([], cs) else (cs.drop 2).span (!isSlash ·)
  let host ← if authority.isEmpty then some "" else host? authority
  let path := match path with
    | c :: rest => if isSlash c then rest else path
    | [] => []
  some ("//" ++ (if host = "localhost" then "" else host) ++ pathText (readPath [] path))

def foreign? (scheme : String) (cs : List Char) (fragment : Option String) : Option String := do
  let isFile := scheme = "file"
  let (body, query) :=
    cutQueryWith (if isFile then queryReserved else queryReserved.erase '\'') cs
  let text ← if isFile then fileBody? body else foreignBody? body
  some (scheme ++ ":" ++ text ++ marked "?" query ++ marked "#" fragment)

/-- Reads a text as an address, beside a base if there is one. -/
def readAddress (base : Option Url) (s : String) : Option Address :=
  let (cs, fragment) := cutFragment (cleaned s)
  match readScheme cs with
  | some (scheme, rest) =>
    if (defaultPorts.lookup scheme).isSome then
      let slashes := (rest.takeWhile isSlash).length
      match base with
      | some b =>
        if b.scheme = scheme && slashes < 2 then (readBeside b rest fragment).map .url
        else (readAuthority scheme (rest.dropWhile isSlash) fragment).map .url
      | none => (readAuthority scheme (rest.dropWhile isSlash) fragment).map .url
    else (foreign? scheme rest fragment).map .other
  | none =>
    match base with
    | some b => (readBeside b cs fragment).map .url
    | none => none

namespace Url

def authority (u : Url) : String :=
  u.host ++ match u.port with
    | some p => ":" ++ Decimal.intText p
    | none => ""

def target (u : Url) : String := pathText u.path ++ marked "?" u.query

def text (u : Url) : String :=
  u.scheme ++ "://" ++ loginText u.user u.password ++ u.authority ++ u.target ++
    marked "#" u.fragment

/-- The URL without its user and password. -/
def withoutLogin (u : Url) : Url := { u with user := "", password := none }

/-- The URL without its fragment. -/
def withoutFragment (u : Url) : Url := { u with fragment := none }

def reachedPort (u : Url) : Option Nat := u.port <|> defaultPorts.lookup u.scheme

end Url

end Workflow.Http
