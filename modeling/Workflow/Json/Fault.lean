import Workflow.Json.Printer
import Workflow.Text.Quoted

/-!
# Faults in data

What can be wrong with a text or value that is read as data of some kind, the
message for each cause, and the place in the text it is found at.
-/

namespace Workflow.Json

/-- A departure from the syntax of values. -/
inductive SyntaxError where
  | endInArray
  | endInObject
  | endInString
  | endInValue
  | expectedColon
  | expectedArrayEnd
  | expectedObjectEnd
  | expectedWord
  | expectedValue
  | invalidEscape
  | invalidNumber
  | numberOutOfRange
  | controlCharacter
  | keyNotText
  | loneSurrogate
  | trailingComma
  | trailingCharacters
  | endOfHexEscape
  | tooDeep
  deriving Repr, DecidableEq

def SyntaxError.message : SyntaxError → String
  | .endInArray => "EOF while parsing a list"
  | .endInObject => "EOF while parsing an object"
  | .endInString => "EOF while parsing a string"
  | .endInValue => "EOF while parsing a value"
  | .expectedColon => "expected `:`"
  | .expectedArrayEnd => "expected `,` or `]`"
  | .expectedObjectEnd => "expected `,` or `\x7d`"
  | .expectedWord => "expected ident"
  | .expectedValue => "expected value"
  | .invalidEscape => "invalid escape"
  | .invalidNumber => "invalid number"
  | .numberOutOfRange => "number out of range"
  | .controlCharacter => "control character (\\u0000-\\u001F) found while parsing a string"
  | .keyNotText => "key must be a string"
  | .loneSurrogate => "lone leading surrogate in hex escape"
  | .trailingComma => "trailing comma"
  | .trailingCharacters => "trailing characters"
  | .endOfHexEscape => "unexpected end of hex escape"
  | .tooDeep => "recursion limit exceeded"

/-- What was found where something else was expected. -/
inductive Found where
  | null
  | bool (b : Bool)
  | num (n : Number)
  | str (s : String)
  | arr
  | obj

def Found.text : Found → String
  | .null => "null"
  | .bool true => "boolean `true`"
  | .bool false => "boolean `false`"
  | .num (.whole i) => "integer `" ++ Decimal.intText i ++ "`"
  | .num (.double x) => "floating point `" ++ Decimal.Layout.plain.text x ++ "`"
  | .str s => "string " ++ Text.quoted s
  | .arr => "sequence"
  | .obj => "map"

inductive Cause where
  | syntaxError (e : SyntaxError)
  | missingField (name : String)
  | duplicateField (name : String)
  | invalidType (found : Found) (expected : String)
  | invalidValue (found : Found) (expected : String)
  | invalidLength (count : Nat) (expected : String)
  | unknownVariant (name : String) (expected : List String)
  | other (message : String)

def Cause.message : Cause → String
  | .syntaxError e => e.message
  | .missingField name => "missing field `" ++ name ++ "`"
  | .duplicateField name => "duplicate field `" ++ name ++ "`"
  | .invalidType found expected => "invalid type: " ++ found.text ++ ", expected " ++ expected
  | .invalidValue found expected => "invalid value: " ++ found.text ++ ", expected " ++ expected
  | .invalidLength count expected =>
    "invalid length " ++ Decimal.intText count ++ ", expected " ++ expected
  | .unknownVariant name expected =>
    "unknown variant `" ++ name ++ "`, expected one of " ++
      ", ".intercalate (expected.map fun variant => "`" ++ variant ++ "`")
  | .other message => message

/-- A cause, and the byte offset in the text at which it is reported. -/
structure Fault where
  cause : Cause
  offset : Option Nat

namespace Fault

/-- A fault in data that is no text, or whose place is not known yet. -/
def unplaced (cause : Cause) : Fault := ⟨cause, none⟩

def atOffset (cause : Cause) (offset : Nat) : Fault := ⟨cause, some offset⟩

/-- A fault with the given offset, unless it has one. -/
def place (offset : Option Nat) (fault : Fault) : Fault :=
  match fault.offset with
  | some _ => fault
  | none => { fault with offset := offset }

/-- Line and column of a byte offset, given those reached so far.  Lines count from one,
columns count the bytes since the last line feed. -/
def position (line column : Nat) : Nat → List Char → Nat × Nat
  | _, [] => (line, column)
  | offset, c :: cs =>
    if offset < c.utf8Size then (line, column + offset)
    else if c = '\n' then position (line + 1) 0 (offset - 1) cs
    else position line (column + c.utf8Size) (offset - c.utf8Size) cs

/-- The message for a fault in a text, with its line and column if its place is known. -/
def message (source : String) (fault : Fault) : String :=
  match fault.offset with
  | none => fault.cause.message
  | some offset =>
    let (line, column) := position 1 0 offset source.toList
    fault.cause.message ++ " at line " ++ Decimal.intText line ++ " column " ++
      Decimal.intText column

end Fault

end Workflow.Json
