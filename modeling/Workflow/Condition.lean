import Workflow.Expr.Eval
import Workflow.Json.Decoder

/-!
# Conditions

Trees of conditions on the scope, as condition nodes and the guards of edges use them:
a comparison of a path with a value, an expression, or all, any or none of several
conditions.
-/

namespace Workflow

/-- How a condition compares the value at a path with its own. -/
inductive Operator where
  | eq | neq | gt | gte | lt | lte
  | contains | startsWith | endsWith
  | within | notWithin | isPresent
  deriving Repr, DecidableEq

namespace Operator

def names : List (String × Operator) :=
  [("eq", .eq), ("neq", .neq), ("gt", .gt), ("gte", .gte), ("lt", .lt), ("lte", .lte),
    ("contains", .contains), ("startsWith", .startsWith), ("endsWith", .endsWith),
    ("in", .within), ("notIn", .notWithin), ("exists", .isPresent)]

def name : Operator → String
  | .eq => "eq"
  | .neq => "neq"
  | .gt => "gt"
  | .gte => "gte"
  | .lt => "lt"
  | .lte => "lte"
  | .contains => "contains"
  | .startsWith => "startsWith"
  | .endsWith => "endsWith"
  | .within => "in"
  | .notWithin => "notIn"
  | .isPresent => "exists"

def compare (p : Float → Float → Bool) : Json → Json → Bool
  | .num a, .num b => p a.toFloat b.toFloat
  | _, _ => false

def isAmong (v : Json) (items : List Json) : Bool := items.any fun item => v.looseEqual item

def holds (op : Operator) (actual expected : Json) : Bool :=
  match op with
  | .isPresent =>
    match expected with
    | .bool wanted => !actual.isNull == wanted
    | _ => !actual.isNull
  | .eq => actual.looseEqual expected
  | .neq => !actual.looseEqual expected
  | .gt => compare (· > ·) actual expected
  | .gte => compare (· ≥ ·) actual expected
  | .lt => compare (· < ·) actual expected
  | .lte => compare (· ≤ ·) actual expected
  | .contains =>
    match actual, expected with
    | .str s, .str part => Text.occursIn part.toList s.toList
    | .arr items, v => items.any fun item => item.looseEqual v
    | _, _ => false
  | .startsWith =>
    match actual, expected with
    | .str s, .str start => start.toList.isPrefixOf s.toList
    | _, _ => false
  | .endsWith =>
    match actual, expected with
    | .str s, .str ending => ending.toList.isSuffixOf s.toList
    | _, _ => false
  | .within =>
    match expected with
    | .arr items => isAmong actual items
    | _ => false
  | .notWithin =>
    match expected with
    | .arr items => !isAmong actual items
    | _ => false

end Operator

/-- A comparison of the value at a path with a fixed value. -/
structure Comparison where
  field : String
  operator : Operator
  value : Json

inductive Condition where
  | simple (c : Comparison)
  | expression (source : String)
  | all (conditions : List Condition)
  | any (conditions : List Condition)
  | none (conditions : List Condition)

def Comparison.holds (scope : Scope) (c : Comparison) : Bool :=
  c.operator.holds ((scope.resolve c.field).getD .null) c.value

namespace Condition

mutual

/-- Whether a condition holds.  An expression without a value does not. -/
def holds (scope : Scope) : Condition → Bool
  | .simple c => c.holds scope
  | .expression source =>
    match Expr.evaluate? scope source with
    | some v => v.truthy
    | .none => false
  | .all cs => allHold scope cs
  | .any cs => anyHolds scope cs
  | .none cs => !anyHolds scope cs

def allHold (scope : Scope) : List Condition → Bool
  | [] => true
  | c :: rest => holds scope c && allHold scope rest

def anyHolds (scope : Scope) : List Condition → Bool
  | [] => false
  | c :: rest => holds scope c || anyHolds scope rest

end

mutual

def toJson : Condition → Json
  | .simple c =>
    .ofPairs [("type", .str "simple"), ("field", .str c.field), ("operator", .str c.operator.name),
      ("value", c.value)]
  | .expression source => .ofPairs [("type", .str "expression"), ("expression", .str source)]
  | .all cs => .ofPairs [("type", .str "all"), ("conditions", .arr (toJsons cs))]
  | .any cs => .ofPairs [("type", .str "any"), ("conditions", .arr (toJsons cs))]
  | .none cs => .ofPairs [("type", .str "none"), ("conditions", .arr (toJsons cs))]

def toJsons : List Condition → List Json
  | [] => []
  | c :: rest => toJson c :: toJsons rest

end

open Json in
def comparison : Decoder Comparison :=
  Record.decoder "struct SimpleCondition" <|
    Comparison.mk <$> Record.required "field" Decoder.text
      <*> Record.required "operator" (Decoder.name Operator.names)
      <*> Record.defaulted "value" Decoder.json .null

def title : String := "internally tagged enum Condition"

open Json in
def decoderWithin : Nat → Decoder Condition
  | 0 => fun d => .error (d.mismatch title)
  | n + 1 =>
    let group (variant : String) (make : List Condition → Condition) :
        String × Decoder Condition :=
      (variant.toLower, Record.decoder ("struct variant Condition::" ++ variant)
        (make <$> Record.required "conditions" (Decoder.list (decoderWithin n))))
    Decoder.tagged title "type"
      [("simple", fun d => (comparison d).map Condition.simple),
        ("expression", Record.decoder "struct variant Condition::Expression"
          (Condition.expression <$> Record.required "expression" Decoder.text)),
        group "All" .all, group "Any" .any, group "None" .none]

open Json in
def decoder : Decoder Condition := fun d => decoderWithin (d.depth + 1) d

end Condition

end Workflow
