import Workflow.Expr.Parser
import Workflow.Json.Compare
import Workflow.Json.Reader

/-!
# Evaluating expressions

An expression that only names a path is followed inside the values of the scope; a
value is taken out at the end.  Missing parts are null.  Only arithmetic, negation and
the helper that parses text can fail.
-/

namespace Workflow.Expr

/-- Why an expression has no value. -/
inductive EvalError where
  | negation
  | arithmetic (left right : Json)
  | divisionByZero
  | notFinite
  | unparsable (message : String)
  | parseOf (value : Json)

def EvalError.message : EvalError → String
  | .negation => "cannot negate a non-number"
  | .arithmetic left right => "arithmetic on " ++ left.kind ++ " and " ++ right.kind
  | .divisionByZero => "division by zero"
  | .notFinite => "arithmetic produced a non-finite number"
  | .unparsable message => "$parse: " ++ message
  | .parseOf value => "$parse expects a string, got " ++ value.kind

/-- What keeps a text from having a value as an expression. -/
inductive Error where
  | parse (e : ParseError)
  | eval (e : EvalError)

def Error.message : Error → String
  | .parse e => "parse error: " ++ e.message
  | .eval e => "evaluation error: " ++ e.message

/-- The member of a value under a key: also the length of a text or array. -/
def memberOf (key : String) (v : Json) : Json :=
  match v with
  | .arr items => if key = "length" then .ofNat items.length else .ofOption (v.step key)
  | .str s => if key = "length" then .ofNat s.length else .ofOption (v.step key)
  | v => .ofOption (v.step key)

/-- Where an expression points: at all the members of a root, at a part of the scope, or at
a value of its own. -/
inductive Place where
  | members (fields : Keyed Json)
  | part (value : Json)
  | computed (value : Json)

namespace Place

/-- A part of the scope if there is one, else null. -/
def ofPart? : Option Json → Place
  | some v => .part v
  | none => .computed .null

def member (key : String) : Place → Place
  | .members fields => ofPart? (Keyed.get? key fields)
  | .part v =>
    match v, decide (key = "length") with
    | .arr _, true => .computed (memberOf key v)
    | .str _, true => .computed (memberOf key v)
    | v, _ => ofPart? (v.step key)
  | .computed v => .computed (memberOf key v)

/-- The place at a position: a member if it is a text, an item if it is a whole number that
is not negative. -/
def index (position : Json) (p : Place) : Place :=
  match position with
  | .str key => p.member key
  | .num (.whole i) =>
    if i < 0 then .computed .null
    else
      match p with
      | .part (.arr items) => ofPart? items[i.toNat]?
      | .computed (.arr items) => .computed (.ofOption items[i.toNat]?)
      | _ => .computed .null
  | _ => .computed .null

def toJson : Place → Json
  | .members fields => .obj fields
  | .part v => v
  | .computed v => v

def ofRoot (scope : Scope) : Root → Place
  | .trigger => .part scope.trigger
  | .event => .part scope.trigger
  | .bindings => .members scope.bindings
  | .nodes => .members scope.nodes

end Place

def numeric (x : Float) : Except EvalError Json :=
  match numberOf? x with
  | some v => .ok v
  | none => .error .notFinite

/-- The double a value stands for in arithmetic, if it is a number. -/
def floatOf? : Json → Option Float
  | .num n => some n.toFloat
  | _ => none

/-- Whether two values are ordered as asked: numbers as doubles, texts by code points, and
nothing else. -/
def ordered (numbers : Float → Float → Bool) (texts : String → String → Bool) :
    Json → Json → Bool
  | .num a, .num b => numbers a.toFloat b.toFloat
  | .str a, .str b => texts a b
  | _, _ => false

def arithmetic (op : Float → Float → Except EvalError Json) (left right : Json) :
    Except EvalError Json :=
  match floatOf? left, floatOf? right with
  | some l, some r => op l r
  | _, _ => .error (.arithmetic left right)

def isText : Json → Bool
  | .str _ => true
  | _ => false

/-- An operator on the values of its operands.  Those of logic take their second operand only
as needed; here both are given. -/
def applyBinary (op : BinaryOp) (left right : Json) : Except EvalError Json :=
  match op with
  | .eq => .ok (.bool (left.looseEqual right))
  | .ne => .ok (.bool (!left.looseEqual right))
  | .lt => .ok (.bool (ordered (· < ·) (· < ·) left right))
  | .le => .ok (.bool (ordered (· ≤ ·) (fun a b => !(b < a)) left right))
  | .gt => .ok (.bool (ordered (· > ·) (· > ·) left right))
  | .ge => .ok (.bool (ordered (· ≥ ·) (fun a b => !(a < b)) left right))
  | .add =>
    if isText left || isText right then .ok (.str (left.display ++ right.display))
    else arithmetic (fun l r => numeric (l + r)) left right
  | .sub => arithmetic (fun l r => numeric (l - r)) left right
  | .mul => arithmetic (fun l r => numeric (l * r)) left right
  | .div =>
    arithmetic (fun l r => if r == 0.0 then .error .divisionByZero else numeric (l / r)) left right
  | .rem =>
    arithmetic
      (fun l r => if r == 0.0 then .error .divisionByZero else numeric (Decimal.remainder l r))
      left right
  | .and => .ok (if left.truthy then right else left)
  | .or => .ok (if left.truthy then left else right)

def sizeOf : Json → Nat
  | .str s => s.length
  | .arr items => items.length
  | .obj fields => fields.length
  | _ => 0

def emptyValue : Json → Bool
  | .null => true
  | .str s => s.isEmpty
  | .arr items => items.isEmpty
  | .obj fields => fields.isEmpty
  | _ => false

def toNumber : Json → Json
  | .num n => .num n
  | .bool b => .ofNat (if b then 1 else 0)
  | .str s => .ofOption ((Decimal.parse? (Text.trim s)).bind numberOf?)
  | _ => .null

/-- The value at a path inside a value, or a default if it is null or missing. -/
def getOr (v path default : Json) : Json :=
  let segments := (Text.splitAt '.' path.display).filter fun s => !s.isEmpty
  match v.walk segments with
  | some .null => default
  | some v => v
  | none => default

def applyHelper (now : Time.Instant) (helper : Helper) (args : List Json) :
    Except EvalError Json :=
  let first := args.headD .null
  match helper with
  | .get => .ok (getOr first ((args[1]?).getD .null) ((args[2]?).getD .null))
  | .len => .ok (.ofNat (sizeOf first))
  | .isPresent => .ok (.bool !first.isNull)
  | .isEmpty => .ok (.bool (emptyValue first))
  | .now => .ok (.str now.offsetText)
  | .lower => .ok (.str (Text.lower first.display))
  | .upper => .ok (.str (Text.upper first.display))
  | .trim => .ok (.str (Text.trim first.display))
  | .number => .ok (toNumber first)
  | .string => .ok (.str first.display)
  | .json => .ok (.str first.text)
  | .parse =>
    match first with
    | .str s =>
      match Json.read s with
      | .ok v => .ok v
      | .error message => .error (.unparsable message)
    | v => .error (.parseOf v)

mutual

def place (scope : Scope) : Expr → Except EvalError Place
  | .literal v => .ok (.computed v)
  | .root r => .ok (.ofRoot scope r)
  | .member object key => do
    let p ← place scope object
    .ok (p.member key)
  | .index object position => do
    let p ← place scope object
    let i ← place scope position
    .ok (p.index i.toJson)
  | .array items => do
    let vs ← values scope items
    .ok (.computed (.arr vs))
  | .call helper args => do
    let vs ← values scope args
    let v ← applyHelper scope.now helper vs
    .ok (.computed v)
  | .unary .not operand => do
    let p ← place scope operand
    .ok (.computed (.bool !p.toJson.truthy))
  | .unary .neg operand => do
    let p ← place scope operand
    match floatOf? p.toJson with
    | some x => do
      let v ← numeric (-x)
      .ok (.computed v)
    | none => .error .negation
  | .binary .and left right => do
    let l ← place scope left
    if l.toJson.truthy then do
      let r ← place scope right
      .ok (.computed r.toJson)
    else .ok (.computed l.toJson)
  | .binary .or left right => do
    let l ← place scope left
    if l.toJson.truthy then .ok (.computed l.toJson)
    else do
      let r ← place scope right
      .ok (.computed r.toJson)
  | .binary op left right => do
    let l ← place scope left
    let r ← place scope right
    let v ← applyBinary op l.toJson r.toJson
    .ok (.computed v)
  | .conditional condition thenExpr elseExpr => do
    let c ← place scope condition
    if c.toJson.truthy then do
      let p ← place scope thenExpr
      .ok (.computed p.toJson)
    else do
      let p ← place scope elseExpr
      .ok (.computed p.toJson)

def values (scope : Scope) : List Expr → Except EvalError (List Json)
  | [] => .ok []
  | e :: rest => do
    let p ← place scope e
    let vs ← values scope rest
    .ok (p.toJson :: vs)

end

def eval (scope : Scope) (e : Expr) : Except EvalError Json := (place scope e).map Place.toJson

def evaluate (scope : Scope) (source : String) : Except Error Json :=
  match parse source with
  | .error e => .error (.parse e)
  | .ok e => (eval scope e).mapError Error.eval

/-- The value of a text as an expression, if it has one. -/
def evaluate? (scope : Scope) (source : String) : Option Json :=
  match evaluate scope source with
  | .ok v => some v
  | .error _ => none

end Workflow.Expr
