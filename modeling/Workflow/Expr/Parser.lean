import Workflow.Expr.Syntax
import Workflow.Expr.Token

/-!
# Parsing expressions

Precedence, from loose to tight: `? :`, `||`, `&&`, equality, order, `+ -`, `* / %`,
the operators with one operand, access.  Operators with two operands associate to the
left.  Nesting is limited: a parser is given the number of levels that it may still
open.
-/

namespace Workflow.Expr

/-- Why a text is not an expression. -/
inductive ParseError where
  | tooLong
  | lexical (e : LexError)
  | empty
  | unexpectedToken (t : Token)
  | expected (m : Mark) (found : Option Token)
  | expectedProperty (found : Option Token)
  | endOfExpression
  | unknownName (name : String)
  | unknownHelper (name : String)
  | wrongArity (helper : Helper) (count : Nat)
  | unexpectedMark (m : Mark)
  | tooDeep

def maxLength : Nat := 4096

def maxDepth : Nat := 64

def ParseError.message : ParseError → String
  | .tooLong => "expression longer than " ++ Decimal.intText maxLength ++ " bytes"
  | .lexical e => e.message
  | .empty => "empty expression"
  | .unexpectedToken t => "unexpected token: " ++ t.text
  | .expected m found => "expected '" ++ m.text ++ "', found " ++ Token.text? found
  | .expectedProperty found => "expected property name, found " ++ Token.text? found
  | .endOfExpression => "unexpected end of expression"
  | .unknownName name => "unknown identifier '" ++ name ++ "'"
  | .unknownHelper name => "unknown helper '" ++ name ++ "'"
  | .wrongArity helper count =>
    helper.name ++ " takes " ++ Decimal.intText helper.arity.1 ++ "..=" ++
      Decimal.intText helper.arity.2 ++ " arguments, got " ++ Decimal.intText count
  | .unexpectedMark m => "unexpected token '" ++ m.text ++ "'"
  | .tooDeep => "expression nested too deeply"

/-- A parser takes tokens from the front of a list and gives back the rest. -/
abbrev Parser (α : Type) := List Token → Except ParseError (α × List Token)

/-- Takes a mark if it comes next. -/
def eat? (m : Mark) : List Token → Option (List Token)
  | .mark m' :: ts => if m' = m then some ts else none
  | _ => none

def expect (m : Mark) (ts : List Token) : Except ParseError (List Token) :=
  match eat? m ts with
  | some ts => .ok ts
  | none => .error (.expected m ts.head?)

/-- A whole number below `2 ^ 53` in absolute value is kept as such, any other finite number
as a double. -/
def numberOf? (x : Float) : Option Json :=
  match Decimal.Binary.ofFloat? x with
  | none => none
  | some b =>
    match b.whole? with
    | some i => if i.natAbs < Nat.pow 2 53 then some (.num (.whole i)) else some (.num (.double x))
    | none => some (.num (.double x))

def levels : List (List (Mark × BinaryOp)) :=
  [[(.either, .or)],
    [(.both, .and)],
    [(.same, .eq), (.notSame, .ne), (.equal, .eq), (.notEqual, .ne)],
    [(.atMost, .le), (.atLeast, .ge), (.less, .lt), (.greater, .gt)],
    [(.plus, .add), (.minus, .sub)],
    [(.star, .mul), (.slash, .div), (.percent, .rem)]]

def operator? (ops : List (Mark × BinaryOp)) : List Token → Option (BinaryOp × List Token)
  | .mark m :: ts => (ops.lookup m).map fun op => (op, ts)
  | _ => none

/-- Goes on with the operators of one level, given the left operand so far. -/
def climb (ops : List (Mark × BinaryOp)) (operand : Parser Expr) :
    Nat → Expr → Parser Expr
  | 0, left, ts => .ok (left, ts)
  | fuel + 1, left, ts =>
    match operator? ops ts with
    | none => .ok (left, ts)
    | some (op, ts) =>
      match operand ts with
      | .error e => .error e
      | .ok (right, ts) => climb ops operand fuel (.binary op left right) ts

def binaryExpr (operand : Parser Expr) : List (List (Mark × BinaryOp)) → Parser Expr
  | [], ts => operand ts
  | ops :: tighter, ts =>
    match binaryExpr operand tighter ts with
    | .error e => .error e
    | .ok (left, ts) => climb ops (binaryExpr operand tighter) ts.length left ts

/-- A list of expressions, separated by commas, up to a closing mark.  At least one more
expression follows. -/
def listItems (expr : Parser Expr) (close : Mark) : Nat → Parser (List Expr)
  | 0, _ => .error .endOfExpression
  | fuel + 1, ts =>
    match expr ts with
    | .error e => .error e
    | .ok (item, ts) =>
      match eat? close ts with
      | some ts => .ok ([item], ts)
      | none =>
        match expect .comma ts with
        | .error e => .error e
        | .ok ts =>
          match listItems expr close fuel ts with
          | .error e => .error e
          | .ok (items, ts) => .ok (item :: items, ts)

def listExpr (expr : Parser Expr) (close : Mark) : Parser (List Expr) := fun ts =>
  match eat? close ts with
  | some ts => .ok ([], ts)
  | none => listItems expr close (ts.length + 1) ts

def wordExpr (name : String) : Except ParseError Expr :=
  if name = "true" then .ok (.literal (.bool true))
  else if name = "false" then .ok (.literal (.bool false))
  else if name = "null" || name = "undefined" then .ok (.literal .null)
  else
    match Root.ofName? name with
    | some r => .ok (.root r)
    | none => .error (.unknownName name)

def primaryExpr (expr : Parser Expr) : Parser Expr
  | [] => .error .endOfExpression
  | .number x :: ts => .ok (.literal ((numberOf? x).getD .null), ts)
  | .quoted s :: ts => .ok (.literal (.str s), ts)
  | .word name :: ts =>
    match wordExpr name with
    | .ok e => .ok (e, ts)
    | .error e => .error e
  | .helper name :: ts =>
    match Helper.ofName? name with
    | none => .error (.unknownHelper name)
    | some helper => do
      let ts ← expect .openParen ts
      let (args, ts) ← listExpr expr .closeParen ts
      if helper.arity.1 ≤ args.length && args.length ≤ helper.arity.2 then
        .ok (.call helper args, ts)
      else .error (.wrongArity helper args.length)
  | .mark .openParen :: ts => do
    let (inner, ts) ← expr ts
    let ts ← expect .closeParen ts
    .ok (inner, ts)
  | .mark .openBracket :: ts => do
    let (items, ts) ← listExpr expr .closeBracket ts
    .ok (.array items, ts)
  | .mark m :: _ => .error (.unexpectedMark m)

def accessExpr (expr : Parser Expr) : Nat → Expr → Parser Expr
  | 0, object, ts => .ok (object, ts)
  | fuel + 1, object, ts =>
    match ts with
    | .mark .dot :: .word name :: ts => accessExpr expr fuel (.member object name) ts
    | .mark .dot :: ts => .error (.expectedProperty ts.head?)
    | .mark .openBracket :: ts => do
      let (position, ts) ← expr ts
      let ts ← expect .closeBracket ts
      accessExpr expr fuel (.index object position) ts
    | ts => .ok (object, ts)

def postfixExpr (expr : Parser Expr) : Parser Expr := fun ts =>
  match primaryExpr expr ts with
  | .error e => .error e
  | .ok (object, ts) => accessExpr expr ts.length object ts

def unaryExpr (deeper expr : Parser Expr) : Parser Expr := fun ts =>
  match ts with
  | .mark .bang :: ts => do
    let (operand, ts) ← deeper ts
    .ok (.unary .not operand, ts)
  | .mark .minus :: ts => do
    let (operand, ts) ← deeper ts
    .ok (.unary .neg operand, ts)
  | ts => postfixExpr expr ts

/-- An expression with operators of all levels, over a parser for operands and one for the
arms of a condition. -/
def conditionalExpr (operand expr : Parser Expr) : Parser Expr := fun ts => do
  let (condition, ts) ← binaryExpr operand levels ts
  match eat? .question ts with
  | none => .ok (condition, ts)
  | some ts => do
    let (thenExpr, ts) ← expr ts
    let ts ← expect .colon ts
    let (elseExpr, ts) ← expr ts
    .ok (.conditional condition thenExpr elseExpr, ts)

/-- The parsers for a whole expression and for an operand. -/
structure Parsers where
  expr : Parser Expr
  operand : Parser Expr

def refuse : Parser Expr := fun _ => .error .tooDeep

def parsers : Nat → Parsers
  | 0 => ⟨refuse, unaryExpr refuse refuse⟩
  | room + 1 =>
    let inner := parsers room
    let expr := conditionalExpr inner.operand inner.expr
    ⟨expr, unaryExpr inner.operand expr⟩

def ofTokens (ts : List Token) : Except ParseError Expr :=
  match (parsers maxDepth).expr ts with
  | .error e => .error e
  | .ok (e, []) => .ok e
  | .ok (_, t :: _) => .error (.unexpectedToken t)

def parse (source : String) : Except ParseError Expr :=
  if maxLength < source.utf8ByteSize then .error .tooLong
  else
    match tokens source.toList with
    | .error e => .error (.lexical e)
    | .ok [] => .error .empty
    | .ok ts => ofTokens ts

end Workflow.Expr
