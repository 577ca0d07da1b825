/-!
# Failures of a store

Why a store cannot answer.  A failure has a message, and behind it the chain of the
messages of its causes.
-/

namespace Workflow

/-- Why the address of a database cannot be used. -/
inductive AddressError where
  | noScheme
  | emptyHost
  | invalidPort
  | invalidHost
  deriving Repr, DecidableEq

def AddressError.message : AddressError → String
  | .noScheme => "relative URL without a base"
  | .emptyHost => "empty host"
  | .invalidPort => "invalid port number"
  | .invalidHost => "invalid international domain name"

/-- Why a statement has no result. -/
inductive DatabaseError where
  | refused (message : String)
  | noRow
  | unexpectedNull (column : String)
  | address (e : AddressError)
  deriving Repr, DecidableEq

namespace DatabaseError

def chain : DatabaseError → List String
  | .refused message => ["error returned from database: " ++ message, message]
  | .noRow => ["no rows returned by a query that expected to return at least one row"]
  | .unexpectedNull column =>
    let cause := "unexpected null; try decoding as an `Option`"
    ["error occurred while decoding column " ++ "\"" ++ column ++ "\": " ++ cause, cause]
  | .address e => ["error with configuration: " ++ e.message, e.message]

def message (e : DatabaseError) : String := e.chain.headD ""

end DatabaseError

inductive StoreError where
  | database (e : DatabaseError)
  | migration (version : String) (e : DatabaseError)
  | notFound
  | invalidStatus (text : String)
  deriving Repr, DecidableEq

namespace StoreError

def chain : StoreError → List String
  | .database e => ("sqlx error: " ++ e.message) :: e.chain
  | .migration version e =>
    let cause := "while executing migration " ++ version ++ ": " ++ e.message
    ("migration error: " ++ cause) :: cause :: e.chain
  | .notFound => ["row not found"]
  | .invalidStatus text => ["invalid execution status: " ++ text]

def message (e : StoreError) : String := e.chain.headD ""

end StoreError

end Workflow
