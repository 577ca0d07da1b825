import Workflow.Condition
import Workflow.Proofs.Except

/-!
# What makes an expression fail

Arithmetic, negation and the helper that parses texts have values only for some of their operands.
Each failure of an expression is one of theirs: it can be traced to a part of the expression that is
one of these.  So an expression with none of them inside has a value in every scope, whatever is
missing there and of whatever kind the values are, and a guard that consists of it is decided by
that value.
-/

namespace Workflow

def BinaryOp.IsArithmetic : BinaryOp → Prop
  | .add => True
  | .sub => True
  | .mul => True
  | .div => True
  | .rem => True
  | _ => False

namespace Expr

/-! ### Parts of an expression -/

mutual

/-- An expression, and all those inside it. -/
def subterms : Expr → List Expr
  | .literal v => [.literal v]
  | .root r => [.root r]
  | .member object key => .member object key :: subterms object
  | .index object position => .index object position :: (subterms object ++ subterms position)
  | .array items => .array items :: subtermsOfAll items
  | .call helper args => .call helper args :: subtermsOfAll args
  | .unary op operand => .unary op operand :: subterms operand
  | .binary op left right => .binary op left right :: (subterms left ++ subterms right)
  | .conditional condition thenExpr elseExpr =>
    .conditional condition thenExpr elseExpr ::
      (subterms condition ++ (subterms thenExpr ++ subterms elseExpr))

def subtermsOfAll : List Expr → List Expr
  | [] => []
  | e :: rest => subterms e ++ subtermsOfAll rest

end

theorem self_mem_subterms (e : Expr) : e ∈ e.subterms := by
  cases e with
  | literal v => exact List.mem_singleton_self _
  | root r => exact List.mem_singleton_self _
  | _ => exact List.mem_cons_self

/-- An arithmetic operator, a negation, or a call of the helper that parses texts. -/
def IsPartial : Expr → Prop
  | .unary .neg _ => True
  | .binary op _ _ => op.IsArithmetic
  | .call helper _ => helper = .parse
  | _ => False

/-! ### Failures -/

/-- A failure is one that an expression may have of its own. -/
def Raises : Expr → EvalError → Prop
  | .unary .neg _, .negation => True
  | .unary .neg _, .notFinite => True
  | .binary op _ _, .arithmetic _ _ => op.IsArithmetic
  | .binary op _ _, .divisionByZero => op = .div ∨ op = .rem
  | .binary op _ _, .notFinite => op.IsArithmetic
  | .call helper _, .unparsable _ => helper = .parse
  | .call helper _, .parseOf _ => helper = .parse
  | _, _ => False

theorem Raises.isPartial {e : Expr} {failure : EvalError} (h : e.Raises failure) :
    e.IsPartial := by
  unfold Raises at h
  split at h
  · trivial
  · trivial
  · exact h
  · rcases h with rfl | rfl <;> trivial
  · exact h
  · exact h
  · exact h
  · exact h.elim

theorem eq_notFinite_of_numeric {x : Float} {failure : EvalError}
    (h : numeric x = .error failure) : failure = .notFinite := by
  rw [numeric] at h
  split at h
  · cases h
  · exact (Except.error.inj h).symm

theorem divide_eq_error {l r : Float} {quotient : Float → Float → Float} {failure : EvalError}
    (h : (if r == 0.0 then .error .divisionByZero else numeric (quotient l r)) = .error failure) :
    failure = .notFinite ∨ failure = .divisionByZero := by
  split at h
  · exact .inr (Except.error.inj h).symm
  · exact .inl (eq_notFinite_of_numeric h)

theorem raises_of_arithmetic {op : BinaryOp} {f : Float → Float → Except EvalError Json}
    (hop : op.IsArithmetic)
    (hf : ∀ l r failure, f l r = .error failure →
      failure = .notFinite ∨ failure = .divisionByZero ∧ (op = .div ∨ op = .rem))
    {l r : Json} {failure : EvalError} (h : arithmetic f l r = .error failure)
    {left right : Expr} : (binary op left right).Raises failure := by
  rw [arithmetic] at h
  split at h
  · rcases hf _ _ _ h with rfl | ⟨rfl, hdivides⟩
    · exact hop
    · exact hdivides
  · cases h
    exact hop

theorem raises_of_applyBinary {op : BinaryOp} {l r : Json} {failure : EvalError}
    (h : applyBinary op l r = .error failure) {left right : Expr} :
    (binary op left right).Raises failure := by
  cases op with
  | add =>
      rw [applyBinary] at h
      split at h
      · cases h
      · refine raises_of_arithmetic ?_ (fun _ _ _ hsum => ?_) h
        · trivial
        · exact .inl (eq_notFinite_of_numeric hsum)
  | sub =>
      refine raises_of_arithmetic ?_ (fun _ _ _ hdifference => ?_) h
      · trivial
      · exact .inl (eq_notFinite_of_numeric hdifference)
  | mul =>
      refine raises_of_arithmetic ?_ (fun _ _ _ hproduct => ?_) h
      · trivial
      · exact .inl (eq_notFinite_of_numeric hproduct)
  | div =>
      refine raises_of_arithmetic ?_ (fun _ _ _ hquotient => ?_) h
      · trivial
      · exact (divide_eq_error hquotient).imp_right fun hzero => ⟨hzero, .inl rfl⟩
  | rem =>
      refine raises_of_arithmetic ?_ (fun _ _ _ hremainder => ?_) h
      · trivial
      · exact (divide_eq_error hremainder).imp_right fun hzero => ⟨hzero, .inr rfl⟩
  | _ => cases h

theorem raises_of_applyHelper {now : Time.Instant} {helper : Helper} {vs : List Json}
    {failure : EvalError} (h : applyHelper now helper vs = .error failure) {args : List Expr} :
    (call helper args).Raises failure := by
  cases helper with
  | parse =>
      simp only [applyHelper] at h
      split at h
      · split at h
        · cases h
        · cases h
          exact rfl
      · cases h
        exact rfl
  | _ => cases h

/-! ### Where failures come from -/

section

variable {scope : Scope} {failure : EvalError}

/-- A failure is one of a part of an expression. -/
def ComesFrom (failure : EvalError) (parts : List Expr) : Prop :=
  ∃ part ∈ parts, part.Raises failure

theorem ComesFrom.mono {ps qs : List Expr} (h : ComesFrom failure ps)
    (hsub : ∀ part ∈ ps, part ∈ qs) : ComesFrom failure qs := by
  obtain ⟨part, hpart, hraises⟩ := h
  exact ⟨part, hsub part hpart, hraises⟩

theorem Raises.comesFrom {e : Expr} (h : e.Raises failure) : ComesFrom failure e.subterms :=
  ⟨e, self_mem_subterms e, h⟩

/-- An operator with two operands fails by one of them, or on their values. -/
theorem operands_of_place {op : BinaryOp} {left right : Expr}
    (h : place scope (.binary op left right) = .error failure) :
    place scope left = .error failure ∨ place scope right = .error failure ∨
      ∃ l r, applyBinary op l r = .error failure := by
  have happlied : (do
      let l ← place scope left
      let r ← place scope right
      let v ← applyBinary op l.toJson r.toJson
      .ok (Place.computed v)) = Except.error failure → place scope left = .error failure ∨
        place scope right = .error failure ∨ ∃ l r, applyBinary op l r = .error failure := by
    intro h
    rcases bind_eq_error h with hleft | ⟨l, -, h⟩
    · exact .inl hleft
    · rcases bind_eq_error h with hright | ⟨r, -, h⟩
      · exact .inr (.inl hright)
      · rcases bind_eq_error h with happly | ⟨v, -, hdone⟩
        · exact .inr (.inr ⟨_, _, happly⟩)
        · cases hdone
  cases op with
  | and =>
      rw [place] at h
      rcases bind_eq_error h with hleft | ⟨l, -, h⟩
      · exact .inl hleft
      · split at h
        · rcases bind_eq_error h with hright | ⟨r, -, hdone⟩
          · exact .inr (.inl hright)
          · cases hdone
        · cases h
  | or =>
      rw [place] at h
      rcases bind_eq_error h with hleft | ⟨l, -, h⟩
      · exact .inl hleft
      · split at h
        · cases h
        · rcases bind_eq_error h with hright | ⟨r, -, hdone⟩
          · exact .inr (.inl hright)
          · cases hdone
  | _ =>
      rw [place] at h
      · exact happlied h
      · simp
      · simp

mutual

/-- Each failure of an expression comes from one of its parts. -/
theorem comesFrom_of_place (e : Expr) (h : place scope e = .error failure) :
    ComesFrom failure e.subterms := by
  cases e with
  | literal v => cases h
  | root r => cases h
  | member object key =>
      rw [place] at h
      rcases bind_eq_error h with hobject | ⟨p, -, hdone⟩
      · refine (comesFrom_of_place object hobject).mono fun part hpart => ?_
        simp [subterms, hpart]
      · cases hdone
  | index object position =>
      rw [place] at h
      rcases bind_eq_error h with hobject | ⟨p, -, h⟩
      · refine (comesFrom_of_place object hobject).mono fun part hpart => ?_
        simp [subterms, hpart]
      · rcases bind_eq_error h with hposition | ⟨i, -, hdone⟩
        · refine (comesFrom_of_place position hposition).mono fun part hpart => ?_
          simp [subterms, hpart]
        · cases hdone
  | array items =>
      rw [place] at h
      rcases bind_eq_error h with hitems | ⟨vs, -, hdone⟩
      · refine (comesFrom_of_values items hitems).mono fun part hpart => ?_
        simp [subterms, hpart]
      · cases hdone
  | call helper args =>
      rw [place] at h
      rcases bind_eq_error h with hargs | ⟨vs, -, h⟩
      · refine (comesFrom_of_values args hargs).mono fun part hpart => ?_
        simp [subterms, hpart]
      · rcases bind_eq_error h with hcall | ⟨v, -, hdone⟩
        · exact (raises_of_applyHelper hcall).comesFrom
        · cases hdone
  | unary op operand =>
      cases op with
      | not =>
          rw [place] at h
          rcases bind_eq_error h with hoperand | ⟨p, -, hdone⟩
          · refine (comesFrom_of_place operand hoperand).mono fun part hpart => ?_
            simp [subterms, hpart]
          · cases hdone
      | neg =>
          rw [place] at h
          rcases bind_eq_error h with hoperand | ⟨p, -, h⟩
          · refine (comesFrom_of_place operand hoperand).mono fun part hpart => ?_
            simp [subterms, hpart]
          · split at h
            · rcases bind_eq_error h with hnegated | ⟨v, -, hdone⟩
              · have hraises : (unary .neg operand).Raises failure := by
                  rw [eq_notFinite_of_numeric hnegated]
                  trivial
                exact hraises.comesFrom
              · cases hdone
            · have hraises : (unary .neg operand).Raises failure := by
                cases h
                trivial
              exact hraises.comesFrom
  | binary op left right =>
      -- Logic takes its second operand only as needed; all else is applied to both.
      rcases operands_of_place h with hleft | hright | ⟨l, r, happly⟩
      · refine (comesFrom_of_place left hleft).mono fun part hpart => ?_
        simp [subterms, hpart]
      · refine (comesFrom_of_place right hright).mono fun part hpart => ?_
        simp [subterms, hpart]
      · exact (raises_of_applyBinary happly).comesFrom
  | conditional condition thenExpr elseExpr =>
      rw [place] at h
      rcases bind_eq_error h with hcondition | ⟨c, -, h⟩
      · refine (comesFrom_of_place condition hcondition).mono fun part hpart => ?_
        simp [subterms, hpart]
      · split at h
        · rcases bind_eq_error h with hthen | ⟨p, -, hdone⟩
          · refine (comesFrom_of_place thenExpr hthen).mono fun part hpart => ?_
            simp [subterms, hpart]
          · cases hdone
        · rcases bind_eq_error h with helse | ⟨p, -, hdone⟩
          · refine (comesFrom_of_place elseExpr helse).mono fun part hpart => ?_
            simp [subterms, hpart]
          · cases hdone

theorem comesFrom_of_values (es : List Expr) (h : values scope es = .error failure) :
    ComesFrom failure (subtermsOfAll es) := by
  cases es with
  | nil => cases h
  | cons e rest =>
      rw [values] at h
      rcases bind_eq_error h with hfirst | ⟨p, -, h⟩
      · refine (comesFrom_of_place e hfirst).mono fun part hpart => ?_
        simp [subtermsOfAll, hpart]
      · rcases bind_eq_error h with hrest | ⟨vs, -, hdone⟩
        · refine (comesFrom_of_values rest hrest).mono fun part hpart => ?_
          simp [subtermsOfAll, hpart]
        · cases hdone

end

theorem comesFrom_of_eval {e : Expr} (h : eval scope e = .error failure) :
    ComesFrom failure e.subterms := by
  rw [eval] at h
  cases hplace : place scope e with
  | error failure' =>
      rw [hplace] at h
      obtain rfl : failure' = failure := Except.error.inj h
      exact comesFrom_of_place e hplace
  | ok p =>
      rw [hplace] at h
      cases h

end

/-- Only arithmetic, negation and the parsing of texts can fail.  An expression that contains none
of these has a value in every scope, and as a condition it holds exactly if this value counts as
true. -/
theorem evaluates_without_partial {source : String} {e : Expr} (hparse : parse source = .ok e)
    (htotal : ∀ part ∈ e.subterms, ¬part.IsPartial) (scope : Scope) :
    ∃ v, evaluate scope source = .ok v ∧ evaluate? scope source = some v ∧
      (Condition.expression source).holds scope = v.truthy := by
  cases heval : eval scope e with
  | error failure =>
      obtain ⟨part, hpart, hraises⟩ := comesFrom_of_eval heval
      exact absurd hraises.isPartial (htotal part hpart)
  | ok v =>
      have hvalue : evaluate scope source = .ok v := by
        rw [evaluate, hparse]
        simp only [heval, Except.mapError]
      have hsome : evaluate? scope source = some v := by rw [evaluate?, hvalue]
      exact ⟨v, hvalue, hsome, by rw [Condition.holds, hsome]⟩

/-- A choice by a comparison of what may be missing, with a helper in one arm. -/
def choosing : Expr :=
  .conditional
    (.binary .lt (.member (.root .trigger) "x") (.literal (.str "a")))
    (.call .len [.root .event])
    (.unary .not (.root .nodes))

theorem parse_choosing : parse "trigger.x < 'a' ? $len(event) : !nodes" = .ok choosing := by
  have htokens : tokens "trigger.x < 'a' ? $len(event) : !nodes".toList = .ok
      [.word "trigger", .mark .dot, .word "x", .mark .less, .quoted "a", .mark .question,
        .helper "$len", .mark .openParen, .word "event", .mark .closeParen, .mark .colon,
        .mark .bang, .word "nodes"] := by
    with_unfolding_all rfl
  rw [parse, if_neg (by decide), htokens]
  with_unfolding_all rfl

/-- It has a value even where there is no payload. -/
theorem choosing_evaluates :
    let source := "trigger.x < 'a' ? $len(event) : !nodes"
    let scope : Scope := ⟨.null, [], [], ⟨0, 0⟩⟩
    parse source = .ok choosing ∧ (∀ part ∈ choosing.subterms, ¬part.IsPartial) ∧
      ∃ v, evaluate scope source = .ok v ∧
        (Condition.expression source).holds scope = v.truthy := by
  intro source scope
  have htotal : ∀ part ∈ choosing.subterms, ¬part.IsPartial := by
    simp [choosing, subterms, subtermsOfAll, IsPartial, BinaryOp.IsArithmetic]
  obtain ⟨v, hv, -, hholds⟩ := evaluates_without_partial parse_choosing htotal scope
  exact ⟨parse_choosing, htotal, v, hv, hholds⟩

end Expr

end Workflow
