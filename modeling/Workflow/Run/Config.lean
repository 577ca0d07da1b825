import Workflow.Definition.Basic
import Workflow.Mapping
import Workflow.Time.Span

/-!
# Configurations of nodes

What the configuration of a node says, by the type of the node.  A configuration that is
null is an empty one.
-/

namespace Workflow

/-- What is run by a primitive node: a primitive, with a fixed input and a mapping that is
laid over it. -/
structure PrimitiveConfig where
  primitiveId : Option Uuid
  primitive : Option String
  mapping : Keyed Mapping.Entry
  fixed : Keyed Json

/-- What is repeated by a loop node: a collection, and the variables for an item and its
index. -/
structure LoopConfig where
  collection : String
  itemVariable : String
  indexVariable : Option String

/-- How long a delay node waits: the sum of its fields. -/
structure DelayConfig where
  seconds : Float
  minutes : Float
  hours : Float
  days : Float

/-- The nanoseconds of a delay, unless its sum is no span of time. -/
def DelayConfig.nanos? (c : DelayConfig) : Option Nat :=
  Time.nanosOfSeconds? (c.seconds + c.minutes * 60 + c.hours * 3600 + c.days * 86400)

/-- The input of a primitive: the values of the mapping over the fixed ones.  A null does not
cover a fixed value. -/
def PrimitiveConfig.mergeInput (fixed mapped : Keyed Json) : Keyed Json :=
  mapped.foldl (fun input (key, value) =>
    if value.isNull && Keyed.has key input then input else Keyed.insert key value input) fixed

open Json

def PrimitiveConfig.decoder : Decoder PrimitiveConfig :=
  Record.decoder "struct PrimitiveNodeConfig" <|
    PrimitiveConfig.mk <$> Record.optional "primitive_id" Decoder.uuid
      <*> Record.optional "primitive" Decoder.text
      <*> Record.defaulted "input_mapping" Mapping.decoder []
      <*> Record.defaulted "config" (Decoder.keyed Decoder.json) []

def conditionConfig : Decoder Condition :=
  Record.decoder "struct ConditionNodeConfig" (Record.required "condition" Condition.decoder)

def LoopConfig.decoder : Decoder LoopConfig :=
  Record.decoder "struct LoopNodeConfig" <|
    LoopConfig.mk <$> Record.required "collection" Decoder.text
      <*> Record.defaulted "item_variable" Decoder.text "item"
      <*> Record.optional "index_variable" Decoder.text

def DelayConfig.decoder : Decoder DelayConfig :=
  Record.decoder "struct DelayNodeConfig" <|
    DelayConfig.mk <$> Record.defaulted "seconds" Decoder.double 0
      <*> Record.defaulted "minutes" Decoder.double 0
      <*> Record.defaulted "hours" Decoder.double 0
      <*> Record.defaulted "days" Decoder.double 0

def outputConfig : Decoder (Keyed Mapping.Entry) :=
  Record.decoder "struct OutputNodeConfig" (Record.defaulted "mapping" Mapping.decoder [])

def Node.read {α : Type} (n : Node) (decode : Decoder α) : Except String α :=
  Decoder.ofValue decode (if n.config.isNull then .obj [] else n.config)

end Workflow
