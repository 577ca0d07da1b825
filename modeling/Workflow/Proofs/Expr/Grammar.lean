import Mathlib.Data.List.Infix
import Mathlib.Tactic.IntervalCases
import Workflow.Expr.Parser

/-!
# The grammar of expressions

How the trees of expressions are written as tokens: at each level of precedence, with as many
parentheses as one likes, and with the number of levels that a reader has to open.  Among the ways
to write a tree there is one with parentheses only where the order of precedence demands them.
-/

namespace Workflow

open Workflow.Expr

/-! ### Operators and their marks -/

def UnaryOp.mark : UnaryOp → Mark
  | .not => .bang
  | .neg => .minus

def BinaryOp.mark : BinaryOp → Mark
  | .add => .plus
  | .sub => .minus
  | .mul => .star
  | .div => .slash
  | .rem => .percent
  | .eq => .same
  | .ne => .notSame
  | .lt => .less
  | .le => .atMost
  | .gt => .greater
  | .ge => .atLeast
  | .and => .both
  | .or => .either

/-- How tight an operator with two operands binds. -/
def BinaryOp.rank : BinaryOp → Nat
  | .or => 1
  | .and => 2
  | .eq => 3
  | .ne => 3
  | .lt => 4
  | .le => 4
  | .gt => 4
  | .ge => 4
  | .add => 5
  | .sub => 5
  | .mul => 6
  | .div => 6
  | .rem => 6

/-- Whether a helper may be called with so many arguments. -/
def Helper.Takes (helper : Helper) (count : Nat) : Prop :=
  helper.arity.1 ≤ count ∧ count ≤ helper.arity.2

namespace Expr

/-! ### What may be written -/

/-- The levels of precedence: a whole expression, what the operators of the tables that are left
connect, something whose members are named, and what stands by itself.  Without a table there are
operands only. -/
inductive Level where
  | whole
  | operators (tables : List (List (Mark × BinaryOp)))
  | access
  | primary

/-- One of several expressions, with how deep it is and how it is written. -/
structure Part where
  depth : Nat
  tree : Expr
  tokens : List Token

/-- The depth of the deepest of several expressions. -/
def deepest (parts : List Part) : Nat := (parts.map Part.depth).foldr max 0

/-- Lists of tokens with a comma between each two of them. -/
def separated : List (List Token) → List Token
  | [] => []
  | [ts] => ts
  | ts :: us :: more => ts ++ .mark .comma :: separated (us :: more)

/-- A tree may be written with these tokens at a level, and to read it so many levels have to be
opened: one for each whole expression around another one, and one for each operator with one
operand. -/
inductive Written : Level → Nat → Expr → List Token → Prop where
  | null : Written .primary 0 (.literal .null) [.word "null"]
  | undefined : Written .primary 0 (.literal .null) [.word "undefined"]
  | true : Written .primary 0 (.literal (.bool true)) [.word "true"]
  | false : Written .primary 0 (.literal (.bool false)) [.word "false"]
  | quoted (s : String) : Written .primary 0 (.literal (.str s)) [.quoted s]
  | number {x : Float} {v : Json} :
      numberOf? x = some v → Written .primary 0 (.literal v) [.number x]
  | overflow {x : Float} :
      numberOf? x = none → Written .primary 0 (.literal .null) [.number x]
  | root (r : Root) : Written .primary 0 (.root r) [.word r.name]
  | array (parts : List Part) :
      (∀ part ∈ parts, Written .whole part.depth part.tree part.tokens) →
        Written .primary (deepest parts) (.array (parts.map Part.tree))
          (.mark .openBracket :: separated (parts.map Part.tokens) ++ [.mark .closeBracket])
  | call (helper : Helper) (parts : List Part) :
      helper.Takes parts.length →
        (∀ part ∈ parts, Written .whole part.depth part.tree part.tokens) →
          Written .primary (deepest parts) (.call helper (parts.map Part.tree))
            (.helper helper.name :: .mark .openParen :: separated (parts.map Part.tokens) ++
              [.mark .closeParen])
  | enclosed {d : Nat} {e : Expr} {ts : List Token} :
      Written .whole d e ts →
        Written .primary d e (.mark .openParen :: ts ++ [.mark .closeParen])
  | primary {d : Nat} {e : Expr} {ts : List Token} :
      Written .primary d e ts → Written .access d e ts
  | member {d : Nat} {object : Expr} {ts : List Token} (key : String) :
      Written .access d object ts →
        Written .access d (.member object key) (ts ++ [.mark .dot, .word key])
  | index {d d' : Nat} {object position : Expr} {ts us : List Token} :
      Written .access d object ts → Written .whole d' position us →
        Written .access (max d d') (.index object position)
          (ts ++ .mark .openBracket :: us ++ [.mark .closeBracket])
  | access {d : Nat} {e : Expr} {ts : List Token} :
      Written .access d e ts → Written (.operators []) d e ts
  | unary {d : Nat} {operand : Expr} {ts : List Token} (op : UnaryOp) :
      Written (.operators []) d operand ts →
        Written (.operators []) (d + 1) (.unary op operand) (.mark op.mark :: ts)
  | tighter {d : Nat} {e : Expr} {ts : List Token} {ops : List (Mark × BinaryOp)}
      {tables : List (List (Mark × BinaryOp))} :
      Written (.operators tables) d e ts → Written (.operators (ops :: tables)) d e ts
  | binary {d d' : Nat} {left right : Expr} {ts us : List Token} {m : Mark} {op : BinaryOp}
      {ops : List (Mark × BinaryOp)} {tables : List (List (Mark × BinaryOp))} :
      ops :: tables <:+ levels → (m, op) ∈ ops →
        Written (.operators (ops :: tables)) d left ts → Written (.operators tables) d' right us →
          Written (.operators (ops :: tables)) (max d d') (.binary op left right)
            (ts ++ .mark m :: us)
  | plain {d : Nat} {e : Expr} {ts : List Token} :
      Written (.operators levels) d e ts → Written .whole (d + 1) e ts
  | conditional {d d' d'' : Nat} {condition thenExpr elseExpr : Expr} {ts us vs : List Token} :
      Written (.operators levels) d condition ts → Written .whole d' thenExpr us →
        Written .whole d'' elseExpr vs →
          Written .whole (max d (max d' d'') + 1) (.conditional condition thenExpr elseExpr)
            (ts ++ .mark .question :: us ++ .mark .colon :: vs)

/-! ### Trees -/

/-- A tree as it may come out of a parser: literals are null, booleans, texts, and numbers that a
token has, and helpers have as many arguments as they take. -/
inductive Made : Expr → Prop where
  | null : Made (.literal .null)
  | bool (b : Bool) : Made (.literal (.bool b))
  | str (s : String) : Made (.literal (.str s))
  | num {x : Float} {n : Number} : numberOf? x = some (.num n) → Made (.literal (.num n))
  | root (r : Root) : Made (.root r)
  | member {object : Expr} (key : String) : Made object → Made (.member object key)
  | index {object position : Expr} : Made object → Made position → Made (.index object position)
  | array {items : List Expr} : (∀ item ∈ items, Made item) → Made (.array items)
  | call {helper : Helper} {args : List Expr} :
      helper.Takes args.length → (∀ arg ∈ args, Made arg) → Made (.call helper args)
  | unary {operand : Expr} (op : UnaryOp) : Made operand → Made (.unary op operand)
  | binary {left right : Expr} (op : BinaryOp) :
      Made left → Made right → Made (.binary op left right)
  | conditional {condition thenExpr elseExpr : Expr} :
      Made condition → Made thenExpr → Made elseExpr →
        Made (.conditional condition thenExpr elseExpr)

theorem exists_num {x : Float} {v : Json} (h : numberOf? x = some v) : ∃ n, v = .num n := by
  rw [numberOf?] at h
  split at h
  · cases h
  · split at h
    · split at h <;> exact ⟨_, (Option.some.inj h).symm⟩
    · exact ⟨_, (Option.some.inj h).symm⟩

/-- Nothing else is written. -/
theorem Written.made {l : Level} {d : Nat} {e : Expr} {ts : List Token} (h : Written l d e ts) :
    e.Made := by
  induction h with
  | null => exact .null
  | undefined => exact .null
  | true => exact .bool _
  | false => exact .bool _
  | quoted => exact .str _
  | number h =>
      obtain ⟨n, rfl⟩ := exists_num h
      exact .num h
  | overflow => exact .null
  | root r => exact .root r
  | array parts _ ih =>
      refine .array fun item hitem => ?_
      obtain ⟨part, hpart, rfl⟩ := List.mem_map.mp hitem
      exact ih part hpart
  | call helper parts hcount _ ih =>
      refine .call (by rwa [List.length_map]) fun arg harg => ?_
      obtain ⟨part, hpart, rfl⟩ := List.mem_map.mp harg
      exact ih part hpart
  | enclosed _ ih => exact ih
  | primary _ ih => exact ih
  | member key _ ih => exact .member key ih
  | index _ _ ih ih' => exact .index ih ih'
  | access _ ih => exact ih
  | unary op _ ih => exact .unary op ih
  | tighter _ ih => exact ih
  | binary _ _ _ _ ih ih' => exact .binary _ ih ih'
  | plain _ ih => exact ih
  | conditional _ _ _ ih ih' ih'' => exact .conditional ih ih' ih''

/-! ### Parentheses only where they are demanded -/

/-- How tight the outermost constructor of a tree binds. -/
def rank : Expr → Nat
  | .conditional .. => 0
  | .binary op _ _ => op.rank
  | .unary .. => 7
  | _ => 8

/-- What is written for a tree where one that binds as tight as `demand` has to stand. -/
def enclose (demand : Nat) (e : Expr) (ts : List Token) : List Token :=
  if e.rank < demand then .mark .openParen :: ts ++ [.mark .closeParen] else ts

/-- How deep a tree is there. -/
def deepen (demand : Nat) (e : Expr) (n : Nat) : Nat := if e.rank < demand then n + 1 else n

section

variable (spell : Number → Float)

mutual

/-- A tree as tokens, with parentheses only where they are demanded.  Numbers are spelled as
tokens that have them. -/
def printed : Expr → List Token
  | .literal .null => [.word "null"]
  | .literal (.bool true) => [.word "true"]
  | .literal (.bool false) => [.word "false"]
  | .literal (.str s) => [.quoted s]
  | .literal (.num n) => [.number (spell n)]
  | .literal (.arr _) => []
  | .literal (.obj _) => []
  | .root r => [.word r.name]
  | .member object key => enclose 8 object (printed object) ++ [.mark .dot, .word key]
  | .index object position =>
    enclose 8 object (printed object) ++ .mark .openBracket :: printed position ++
      [.mark .closeBracket]
  | .array items => .mark .openBracket :: separated (printedAll items) ++ [.mark .closeBracket]
  | .call helper args =>
    .helper helper.name :: .mark .openParen :: separated (printedAll args) ++ [.mark .closeParen]
  | .unary op operand => .mark op.mark :: enclose 7 operand (printed operand)
  | .binary op left right =>
    enclose op.rank left (printed left) ++
      .mark op.mark :: enclose (op.rank + 1) right (printed right)
  | .conditional condition thenExpr elseExpr =>
    enclose 1 condition (printed condition) ++ .mark .question :: printed thenExpr ++
      .mark .colon :: printed elseExpr

def printedAll : List Expr → List (List Token)
  | [] => []
  | e :: more => printed e :: printedAll more

end

end

mutual

/-- How many levels are to be opened inside a tree that is written like that. -/
def nesting : Expr → Nat
  | .literal _ => 0
  | .root _ => 0
  | .member object _ => deepen 8 object (nesting object)
  | .index object position => max (deepen 8 object (nesting object)) (nesting position + 1)
  | .array items => nestingAll items
  | .call _ args => nestingAll args
  | .unary _ operand => deepen 7 operand (nesting operand) + 1
  | .binary op left right =>
    max (deepen op.rank left (nesting left)) (deepen (op.rank + 1) right (nesting right))
  | .conditional condition thenExpr elseExpr =>
    max (deepen 1 condition (nesting condition))
      (max (nesting thenExpr + 1) (nesting elseExpr + 1))

def nestingAll : List Expr → Nat
  | [] => 0
  | e :: more => max (nesting e + 1) (nestingAll more)

end

/-! ### What is printed is written -/

/-- The level at which a tree stands where one has to bind that tight. -/
def Level.ofRank : Nat → Level
  | 0 => .whole
  | k + 1 => if k < 7 then .operators (levels.drop k) else .access

theorem exists_table (op : BinaryOp) :
    ∃ ops tables, Level.ofRank op.rank = .operators (ops :: tables) ∧
      Level.ofRank (op.rank + 1) = .operators tables ∧ ops :: tables <:+ levels ∧
        (op.mark, op) ∈ ops := by
  cases op <;> exact ⟨_, _, rfl, rfl, by decide, by decide⟩

theorem rank_pos (op : BinaryOp) : 0 < op.rank := by cases op <;> decide

theorem rank_lt (op : BinaryOp) : op.rank < 7 := by cases op <;> decide

theorem rank_le (e : Expr) : e.rank ≤ 8 := by
  cases e with
  | binary op => exact (rank_lt op).le.trans (by decide)
  | _ => simp [rank]

section

variable {d : Nat} {e : Expr} {ts : List Token}

/-- What binds tighter may stand wherever something looser may. -/
theorem Written.looser {k : Nat} (hk : 0 < k) {n : Nat}
    (h : Written (.ofRank (k + n)) d e ts) (hn : k + n ≤ 8) : Written (.ofRank k) d e ts := by
  induction n with
  | zero => exact h
  | succ n ih =>
      apply ih _ (by omega)
      have hcases : ∀ j, 0 < j → j < 8 → Written (.ofRank (j + 1)) d e ts →
          Written (.ofRank j) d e ts := by
        intro j hj hj8 hwritten
        interval_cases j
        all_goals first
          | exact .tighter hwritten
          | exact .access hwritten
      exact hcases (k + n) (by omega) (by omega) h

/-- A tree is printed at the level of its rank, and everywhere with a level more around it. -/
structure Printed (e : Expr) (d : Nat) (ts : List Token) : Prop where
  whole : Written .whole (d + 1) e ts
  ranked : 0 < e.rank → Written (.ofRank e.rank) d e ts

theorem Printed.of_ranked (hrank : 0 < e.rank) (h : Written (.ofRank e.rank) d e ts) :
    Printed e d ts := by
  refine ⟨.plain ?_, fun _ => h⟩
  have hle := e.rank_le
  obtain ⟨n, hn⟩ := Nat.exists_eq_add_of_le (show 1 ≤ e.rank from hrank)
  exact Written.looser (k := 1) Nat.one_pos (hn ▸ h) (by omega)

theorem Printed.of_primary (hrank : e.rank = 8) (h : Written .primary d e ts) :
    Printed e d ts := by
  refine .of_ranked (by omega) ?_
  rw [hrank]
  exact .primary h

theorem Printed.enclose (h : Printed e d ts) (demand : Nat) (hpos : 0 < demand)
    (hdemand : demand ≤ 8) :
    Written (.ofRank demand) (deepen demand e d) e (enclose demand e ts) := by
  rw [deepen, Expr.enclose]
  split
  · obtain ⟨n, hn⟩ := Nat.exists_eq_add_of_le hdemand
    apply Written.looser hpos (n := n) _ hn.ge
    rw [← hn]
    exact .primary (.enclosed h.whole)
  · next hrank =>
    have hle := e.rank_le
    obtain ⟨n, hn⟩ := Nat.exists_eq_add_of_le (Nat.le_of_not_lt hrank)
    exact Written.looser hpos (n := n) (hn ▸ h.ranked (by omega)) (by omega)

end

section

variable {spell : Number → Float}

/-- Each number that a token has is spelled as such a token. -/
def Spells (spell : Number → Float) : Prop :=
  ∀ x n, numberOf? x = some (.num n) → numberOf? (spell n) = some (.num n)

theorem exists_spells : ∃ spell, Spells spell := by
  classical
  refine ⟨fun n => if h : ∃ x, numberOf? x = some (.num n) then h.choose else 0, ?_⟩
  intro x n h
  have hx : ∃ x, numberOf? x = some (.num n) := ⟨x, h⟩
  simp only [hx, dif_pos]
  exact hx.choose_spec

/-- The parts of a list that is printed. -/
def partsOf (spell : Number → Float) (items : List Expr) : List Part :=
  items.map fun e => ⟨e.nesting + 1, e, e.printed spell⟩

theorem map_tree_partsOf (items : List Expr) : (partsOf spell items).map Part.tree = items := by
  simp [partsOf, Function.comp_def]

theorem map_tokens_partsOf (items : List Expr) :
    (partsOf spell items).map Part.tokens = printedAll spell items := by
  induction items with
  | nil => rfl
  | cons e items ih => simpa [partsOf, printedAll] using ih

theorem deepest_partsOf (items : List Expr) :
    deepest (partsOf spell items) = nestingAll items := by
  induction items with
  | nil => rfl
  | cons e items ih => simp_all [partsOf, deepest, nestingAll]

theorem forall_partsOf {items : List Expr}
    (h : ∀ item ∈ items, Printed item item.nesting (item.printed spell)) :
    ∀ part ∈ partsOf spell items, Written .whole part.depth part.tree part.tokens := by
  intro part hpart
  obtain ⟨item, hitem, rfl⟩ := List.mem_map.mp hpart
  exact (h item hitem).whole

/-- The way in which a tree is printed is one to write it. -/
theorem Made.printed (hspell : Spells spell) {e : Expr} (h : e.Made) :
    Printed e e.nesting (e.printed spell) := by
  induction h with
  | null => exact .of_primary rfl .null
  | bool b =>
      cases b with
      | true => exact .of_primary rfl .true
      | false => exact .of_primary rfl .false
  | str s => exact .of_primary rfl (.quoted s)
  | num h => exact .of_primary rfl (.number (hspell _ _ h))
  | root r => exact .of_primary rfl (.root r)
  | member key _ ih =>
      exact .of_ranked (Nat.succ_pos 7) (.member key (ih.enclose 8 (by decide) (by decide)))
  | index _ _ ih ih' =>
      exact .of_ranked (Nat.succ_pos 7) (.index (ih.enclose 8 (by decide) (by decide)) ih'.whole)
  | @array items _ ih =>
      have hwritten := Written.array _ (forall_partsOf ih)
      rw [map_tree_partsOf, map_tokens_partsOf, deepest_partsOf] at hwritten
      exact .of_primary rfl hwritten
  | @call helper args hcount _ ih =>
      have hwritten := Written.call helper (partsOf spell args)
        (by rwa [partsOf, List.length_map]) (forall_partsOf ih)
      rw [map_tree_partsOf, map_tokens_partsOf, deepest_partsOf] at hwritten
      exact .of_primary rfl hwritten
  | unary op _ ih =>
      exact .of_ranked (Nat.succ_pos 6) (.unary op (ih.enclose 7 (by decide) (by decide)))
  | binary op _ _ ih ih' =>
      obtain ⟨ops, tables, hops, htables, hsuffix, hmem⟩ := exists_table op
      have hlt := rank_lt op
      have hleft := ih.enclose op.rank (rank_pos op) (by omega)
      have hright := ih'.enclose (op.rank + 1) (Nat.succ_pos op.rank) (by omega)
      rw [hops] at hleft
      rw [htables] at hright
      refine .of_ranked (rank_pos op) ?_
      rw [rank, hops]
      exact .binary hsuffix hmem hleft hright
  | conditional _ _ _ ih ih' ih'' =>
      refine ⟨.conditional (ih.enclose 1 (by decide) (by decide)) ih'.whole ih''.whole, ?_⟩
      exact fun h => absurd h (Nat.lt_irrefl 0)

end

end Expr

end Workflow
