import Workflow.Json.Basic

/-!
# Comparing values

When a value counts as true, and when two values count as equal even though one is a
whole number and the other a double.
-/

namespace Workflow.Json

/-- Whether a value counts as true: neither null nor false, zero, not a number or the
empty text. -/
def truthy : Json → Bool
  | .null => false
  | .bool b => b
  | .num n => n.toFloat != 0.0 && !n.toFloat.isNaN
  | .str s => !s.isEmpty
  | .arr _ => true
  | .obj _ => true

def looseEqual : Json → Json → Bool
  | .num a, .num b => a.toFloat == b.toFloat
  | a, b => a == b

end Workflow.Json
