import Workflow.Expr.Eval
import Workflow.Json.Decoder
import Workflow.Template

/-!
# Mappings

How the input of a node is put together: under each key an entry that is a fixed value,
a path, an expression or a template.  An entry may say which of these it is; if it does
not, a text is a template and anything else a fixed value.
-/

namespace Workflow.Mapping

/-- An entry that says what it is. -/
inductive Typed where
  | fixed (value : Json)
  | reference (path : String)
  | expression (source : String)
  | template (text : String)

inductive Entry where
  | typed (t : Typed)
  | shorthand (template : String)
  | literal (value : Json)

open Json in
def Typed.decoder : Decoder Typed :=
  let variant (name field : String) (make : String → Typed) : Decoder Typed :=
    Record.decoder ("struct variant TypedMapping::" ++ name)
      (make <$> Record.required field Decoder.text)
  Decoder.tagged "internally tagged enum TypedMapping" "type"
    [("static", Record.decoder "struct variant TypedMapping::Static"
        (Typed.fixed <$> Record.defaulted "value" Decoder.json .null)),
      ("reference", variant "Reference" "path" .reference),
      ("expression", variant "Expression" "expression" .expression),
      ("template", variant "Template" "template" .template)]

def Entry.ofJson (v : Json) : Entry :=
  match Typed.decoder (.ofJson .buffered v) with
  | .ok t => .typed t
  | .error _ =>
    match v with
    | .str s => .shorthand s
    | v => .literal v

open Json in
def Entry.decoder : Decoder Entry := fun d => d.toJson.map Entry.ofJson

def Typed.toJson : Typed → Json
  | .fixed v => .ofPairs [("type", .str "static"), ("value", v)]
  | .reference path => .ofPairs [("type", .str "reference"), ("path", .str path)]
  | .expression source => .ofPairs [("type", .str "expression"), ("expression", .str source)]
  | .template text => .ofPairs [("type", .str "template"), ("template", .str text)]

def Entry.toJson : Entry → Json
  | .typed t => t.toJson
  | .shorthand s => .str s
  | .literal v => v

/-- The value of an entry, if it has one: a path may lead nowhere, and an expression may
fail. -/
def Entry.resolve? (scope : Scope) : Entry → Option Json
  | .typed (.fixed v) => some v
  | .literal v => some v
  | .typed (.reference path) => scope.resolve path
  | .typed (.expression source) => Expr.evaluate? scope source
  | .typed (.template text) => some (.str (Template.fill scope text))
  | .shorthand text => some (.str (Template.fill scope text))

/-- The value of an entry, null if it has none. -/
def Entry.resolve (scope : Scope) (e : Entry) : Json := (e.resolve? scope).getD .null

def resolve (scope : Scope) (entries : Keyed Entry) : Keyed Json :=
  Keyed.mapValues (Entry.resolve scope) entries

open Json in
def decoder : Decoder (Keyed Entry) := Decoder.keyed Entry.decoder

end Workflow.Mapping
