import Workflow.Path

/-!
# Expressions

The tree of an expression.  Nothing outside the scope can be named: the only names are
the roots of paths, and the only functions the helpers below.
-/

namespace Workflow

/-- The functions an expression can call. -/
inductive Helper where
  | get | len | isPresent | isEmpty | now | lower | upper | trim | number | string | json | parse
  deriving Repr, DecidableEq

namespace Helper

def all : List Helper :=
  [.get, .len, .isPresent, .isEmpty, .now, .lower, .upper, .trim, .number, .string, .json, .parse]

def name : Helper → String
  | .get => "$get"
  | .len => "$len"
  | .isPresent => "$exists"
  | .isEmpty => "$empty"
  | .now => "$now"
  | .lower => "$lower"
  | .upper => "$upper"
  | .trim => "$trim"
  | .number => "$number"
  | .string => "$string"
  | .json => "$json"
  | .parse => "$parse"

def ofName? (s : String) : Option Helper := all.find? fun h => h.name = s

/-- The least and the greatest number of arguments. -/
def arity : Helper → Nat × Nat
  | .now => (0, 0)
  | .get => (2, 3)
  | _ => (1, 1)

end Helper

inductive UnaryOp where
  | not
  | neg
  deriving Repr, DecidableEq

inductive BinaryOp where
  | add | sub | mul | div | rem
  | eq | ne | lt | le | gt | ge
  | and | or
  deriving Repr, DecidableEq

inductive Expr where
  | literal (value : Json)
  | root (r : Root)
  | member (object : Expr) (key : String)
  | index (object position : Expr)
  | array (items : List Expr)
  | call (helper : Helper) (args : List Expr)
  | unary (op : UnaryOp) (operand : Expr)
  | binary (op : BinaryOp) (left right : Expr)
  | conditional (condition thenExpr elseExpr : Expr)

end Workflow
