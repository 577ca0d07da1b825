import Workflow.Decimal.Layout
import Workflow.Keyed

/-!
# Values

The values that workflows pass around: null, booleans, numbers, texts, arrays and
objects.  A number is a whole number or a double, and the two kinds stay apart:
`1` and `1.0` are different values.  The members of an object are in key order.
-/

namespace Workflow

/-- A number: whole, or a double. -/
inductive Number where
  | whole (i : Int)
  | double (x : Float)

inductive Json where
  | null
  | bool (b : Bool)
  | num (n : Number)
  | str (s : String)
  | arr (items : List Json)
  | obj (fields : List (String × Json))

instance : Inhabited Json := ⟨.null⟩

namespace Number

/-- Numbers of the same kind and value are equal.  A double without a value equals
nothing, and the two zeros are one. -/
def beq : Number → Number → Bool
  | .whole i, .whole j => i == j
  | .double x, .double y => x == y
  | _, _ => false

instance : BEq Number := ⟨beq⟩

def toFloat : Number → Float
  | .whole i => Float.ofInt i
  | .double x => x

def text : Number → String
  | .whole i => Decimal.intText i
  | .double x => Decimal.Layout.data.text x

end Number

namespace Json

def ofNat (n : Nat) : Json := .num (.whole n)

/-- A value if there is one, else null. -/
def ofOption : Option Json → Json
  | some v => v
  | none => .null

/-- A text if there is one, else null. -/
def ofText? : Option String → Json
  | some s => .str s
  | none => .null

/-- The object with the given members, of which the last one counts for each key. -/
def ofPairs (pairs : List (String × Json)) : Json := .obj (Keyed.ofList pairs)

def field? (key : String) : Json → Option Json
  | .obj fields => Keyed.get? key fields
  | _ => none

def isNull : Json → Bool
  | .null => true
  | _ => false

mutual

def beq : Json → Json → Bool
  | .null, .null => true
  | .bool a, .bool b => a == b
  | .num a, .num b => a == b
  | .str a, .str b => a == b
  | .arr as, .arr bs => beqItems as bs
  | .obj as, .obj bs => beqFields as bs
  | _, _ => false

def beqItems : List Json → List Json → Bool
  | [], [] => true
  | a :: as, b :: bs => beq a b && beqItems as bs
  | _, _ => false

def beqFields : List (String × Json) → List (String × Json) → Bool
  | [], [] => true
  | (k, a) :: as, (l, b) :: bs => k == l && beq a b && beqFields as bs
  | _, _ => false

end

instance : BEq Json := ⟨beq⟩

def kind : Json → String
  | .null => "null"
  | .bool _ => "boolean"
  | .num _ => "number"
  | .str _ => "string"
  | .arr _ => "array"
  | .obj _ => "object"

end Json

end Workflow
