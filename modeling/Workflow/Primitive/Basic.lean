import Workflow.Primitive.Schema
import Workflow.Store.Row

/-!
# Primitives

What a workflow can call: a primitive has an identifier, a name, a version, a schema for
its input, and a time limit.  It is run by a handler, which is given what the primitive
is and the part of the environment that handlers may see.
-/

namespace Workflow

/-- A primitive.  Its time limit is in milliseconds. -/
structure Primitive where
  id : Uuid
  name : String
  category : String
  schema : InputSchema
  timeout : Nat
  enabled : Bool
  version : String

/-- What a handler is told of the primitive it runs. -/
structure PrimitiveInfo where
  id : Uuid
  name : String
  category : String
  version : String
  timeout : Nat

def PrimitiveInfo.toJson (info : PrimitiveInfo) : Json :=
  .ofPairs
    [("id", info.id.toJson), ("name", .str info.name), ("category", .str info.category),
      ("version", .str info.version), ("timeout_ms", .ofNat info.timeout)]

abbrev Environment := Keyed String

def Environment.restrict (allowed : List String) (process : Environment) : Environment :=
  Keyed.ofList (allowed.filterMap fun name =>
    (Keyed.get? name process).map fun value => (name, value))

/-- What a handler is given beside its input. -/
structure HandlerContext where
  info : PrimitiveInfo
  environment : Environment

/-- How a primitive is called for. -/
inductive PrimitiveRef where
  | id (uuid : Uuid)
  | name (text : String)

def PrimitiveRef.text : PrimitiveRef → String
  | .id uuid => uuid.text
  | .name text => text

/-- Why a handler has no output. -/
inductive HandlerError where
  | failed (message : String)
  | fetch (message : String)
  deriving Repr, DecidableEq

def HandlerError.message : HandlerError → String
  | .failed message => message
  | .fetch message => "fetch failed: " ++ message

/-- Why a primitive has no output. -/
inductive PrimitiveError where
  | notFound (reference : String)
  | disabled (name : String)
  | invalidInput (name : String) (fault : InputFault)
  | invalidSchema (name message : String)
  | noHandler (name version : String)
  | handler (name : String) (e : HandlerError)
  | timeout (name : String) (milliseconds : Nat)
  | cancelled (name : String)
  | store (e : StoreError)

namespace PrimitiveError

def message : PrimitiveError → String
  | .notFound reference => "primitive not found: " ++ reference
  | .disabled name => "primitive '" ++ name ++ "' is disabled"
  | .invalidInput name fault => "invalid input for primitive '" ++ name ++ "': " ++ fault.message
  | .invalidSchema name message =>
    "primitive '" ++ name ++ "' has an invalid input schema: " ++ message
  | .noHandler name version =>
    "no handler registered for primitive '" ++ name ++ "' version '" ++ version ++ "'"
  | .handler name e => "primitive '" ++ name ++ "' failed: " ++ e.message
  | .timeout name milliseconds =>
    "primitive '" ++ name ++ "' timed out after " ++ Decimal.intText milliseconds ++ "ms"
  | .cancelled name => "primitive '" ++ name ++ "' was cancelled"
  | .store e => "database error: " ++ e.message

end PrimitiveError

namespace Primitive

/-- The primitive of a row.  A time limit that is not positive is replaced by a default. -/
def ofRow (row : PrimitiveRow) (defaultTimeout : Nat) : Except PrimitiveError Primitive :=
  match InputSchema.ofJson row.inputSchema with
  | .error message => .error (.invalidSchema row.name message)
  | .ok schema =>
    .ok
      { id := row.id
        name := row.name
        category := row.category
        schema
        timeout := if 0 < row.timeoutMs then row.timeoutMs.toNat else defaultTimeout
        enabled := row.enabled
        version := row.version }

def info (p : Primitive) : PrimitiveInfo := ⟨p.id, p.name, p.category, p.version, p.timeout⟩

end Primitive

end Workflow
