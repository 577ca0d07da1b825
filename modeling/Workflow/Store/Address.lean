import Workflow.Http.Url
import Workflow.Store.Error

/-!
# Addresses of databases

The address of a database is a URL.  It is checked before anything is sent to it.
-/

namespace Workflow.Sql

def checkPlace (special : Bool) (place : List Char) : Except AddressError Unit :=
  let (host, port) := match place with
    | '[' :: _ =>
      let (inside, rest) := place.span (· != ']')
      (inside ++ rest.take 1, rest)
    | _ => place.span (· != ':')
  if special && host.isEmpty then .error .emptyHost
  else if !host.isEmpty && (Http.host? host).isNone then .error .invalidHost
  else
    match port with
    | ':' :: digits => if (Http.port? digits).isSome then .ok () else .error .invalidPort
    | _ => .ok ()

def checkAddress (address : String) : Except AddressError Unit :=
  match Http.readScheme (Http.cleaned address) with
  | none => .error .noScheme
  | some (scheme, rest) =>
    let special := (Http.defaultPorts.lookup scheme).isSome
    let ends (c : Char) : Bool := c = '/' || c = '?' || c = '#'
    let place (cs : List Char) : List Char :=
      let authority := cs.takeWhile fun c => !ends c
      match Http.cutLast '@' authority with
      | some (_, place) => place
      | none => authority
    if special then checkPlace true (place (rest.dropWhile Http.isSlash))
    else
      match rest with
      | '/' :: '/' :: rest => checkPlace false (place rest)
      | _ => .ok ()

def reachable (address : String) : Except StoreError Unit :=
  (checkAddress address).mapError fun e => .database (.address e)

end Workflow.Sql
