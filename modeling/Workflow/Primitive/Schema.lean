import Workflow.Json.Decoder
import Workflow.Json.Printer

/-!
# Input schemas

What the input of a primitive must look like: for each field its type, whether it is
required, and the values it may have.  All fields are checked, and each that is wrong is
reported.
-/

namespace Workflow

inductive FieldType where
  | string
  | number
  | integer
  | boolean
  | object
  | array
  | any
  deriving Repr, DecidableEq

namespace FieldType

def name : FieldType → String
  | .string => "string"
  | .number => "number"
  | .integer => "integer"
  | .boolean => "boolean"
  | .object => "object"
  | .array => "array"
  | .any => "any"

def names : List (String × FieldType) :=
  [("string", .string), ("number", .number), ("integer", .integer), ("boolean", .boolean),
    ("object", .object), ("array", .array), ("any", .any)]

/-- Whether a value is of a type.  Only whole numbers are integers. -/
def accepts : FieldType → Json → Bool
  | .string, .str _ => true
  | .number, .num _ => true
  | .integer, .num (.whole _) => true
  | .boolean, .bool _ => true
  | .object, .obj _ => true
  | .array, .arr _ => true
  | .any, _ => true
  | _, _ => false

end FieldType

/-- What a field must look like. -/
structure FieldSchema where
  type : FieldType
  required : Bool
  allowed : Option (List Json)
  description : Option String

abbrev InputSchema := Keyed FieldSchema

/-- What is wrong with a field. -/
inductive FieldFault where
  | missing
  | mistyped (expected : FieldType) (kind : String)
  | excluded (allowed : List Json)

def FieldFault.message : FieldFault → String
  | .missing => "is required"
  | .mistyped expected kind => "expected " ++ expected.name ++ ", got " ++ kind
  | .excluded allowed => "must be one of " ++ (Json.arr allowed).text

/-- What is wrong with an input: it is not an object, or some of its fields are wrong. -/
inductive InputFault where
  | notObject (kind : String)
  | fields (faults : List (String × FieldFault))

def InputFault.entries : InputFault → List (String × String)
  | .notObject kind => [("$input", "expected an object, got " ++ kind)]
  | .fields faults => faults.map fun (field, fault) => (field, fault.message)

def InputFault.message (fault : InputFault) : String :=
  "; ".intercalate (fault.entries.map fun (field, message) => field ++ ": " ++ message)

/-- What is wrong with the value of a field.  A field that is null is missing. -/
def FieldSchema.fault? (schema : FieldSchema) (value : Option Json) : Option FieldFault :=
  match value with
  | none => if schema.required then some .missing else none
  | some .null => if schema.required then some .missing else none
  | some v =>
    if schema.type.accepts v then
      match schema.allowed with
      | some allowed => if allowed.contains v then none else some (.excluded allowed)
      | none => none
    else some (.mistyped schema.type v.kind)

namespace InputSchema

def faults (schema : InputSchema) (input : Keyed Json) : List (String × FieldFault) :=
  schema.filterMap fun (name, field) =>
    (field.fault? (Keyed.get? name input)).map fun fault => (name, fault)

/-- What is wrong with an input.  A schema without fields accepts anything. -/
def fault? (schema : InputSchema) (input : Json) : Option InputFault :=
  if schema.isEmpty then none
  else
    match input with
    | .obj fields =>
      match faults schema fields with
      | [] => none
      | wrong => some (.fields wrong)
    | v => some (.notObject v.kind)

end InputSchema

def FieldSchema.toJson (schema : FieldSchema) : Json :=
  .ofPairs ([("type", .str schema.type.name), ("required", .bool schema.required)] ++
    (match schema.allowed with
      | some allowed => [("enum", .arr allowed)]
      | none => []) ++
    (match schema.description with
      | some description => [("description", .str description)]
      | none => []))

def InputSchema.toJson (schema : InputSchema) : Json :=
  .obj (Keyed.mapValues FieldSchema.toJson schema)

open Json

def FieldSchema.decoder : Decoder FieldSchema :=
  Record.decoder "struct FieldSchema" <|
    FieldSchema.mk <$> Record.defaulted "type" (Decoder.name FieldType.names) .any
      <*> Record.defaulted "required" Decoder.bool false
      <*> Record.optional "enum" (Decoder.list Decoder.json)
      <*> Record.optional "description" Decoder.text

/-- The schema of a value.  Null is the schema without fields. -/
def InputSchema.ofJson : Json → Except String InputSchema
  | .null => .ok []
  | v => Decoder.ofValue (Decoder.keyed FieldSchema.decoder) v

end Workflow
