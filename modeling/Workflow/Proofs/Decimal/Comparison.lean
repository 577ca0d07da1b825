import Workflow.Condition
import Workflow.Proofs.Decimal.Conversion
import Workflow.Proofs.Except
import Workflow.Proofs.Expr.Direct

/-!
# Comparing whole numbers

Conditions and expressions compare numbers as doubles.  So two whole numbers are compared as the
nearest numbers with 53 binary digits, and the answer is true of the numbers themselves as long as
they do not become one by that.
-/

namespace Workflow

open Decimal

/-- The ways to compare numbers that conditions and expressions share. -/
inductive Comparator where
  | equal | unequal | less | atMost | greater | atLeast

namespace Comparator

def operator : Comparator → Operator
  | .equal => .eq
  | .unequal => .neq
  | .less => .lt
  | .atMost => .lte
  | .greater => .gt
  | .atLeast => .gte

def binaryOp : Comparator → BinaryOp
  | .equal => .eq
  | .unequal => .ne
  | .less => .lt
  | .atMost => .le
  | .greater => .gt
  | .atLeast => .ge

/-- The true answer for two whole numbers. -/
def holds : Comparator → Int → Int → Bool
  | .equal, i, j => i = j
  | .unequal, i, j => i ≠ j
  | .less, i, j => i < j
  | .atMost, i, j => i ≤ j
  | .greater, i, j => j < i
  | .atLeast, i, j => j ≤ i

/-- The answer for two doubles. -/
def holdsFloat : Comparator → Float → Float → Bool
  | .equal, x, y => x == y
  | .unequal, x, y => !(x == y)
  | .less, x, y => x < y
  | .atMost, x, y => x ≤ y
  | .greater, x, y => y < x
  | .atLeast, x, y => y ≤ x

theorem operator_holds (c : Comparator) (m n : Number) :
    c.operator.holds (.num m) (.num n) = c.holdsFloat m.toFloat n.toFloat := by
  cases c <;> rfl

theorem applyBinary_eq (c : Comparator) (m n : Number) :
    Expr.applyBinary c.binaryOp (.num m) (.num n) =
      .ok (.bool (c.holdsFloat m.toFloat n.toFloat)) := by
  cases c <;> rfl

/-- Both operands are evaluated; none of these operators is one of logic. -/
theorem eval_binary (c : Comparator) {scope : Scope} {left right : Expr} {v w : Json}
    (hleft : Expr.eval scope left = .ok v) (hright : Expr.eval scope right = .ok w) :
    Expr.eval scope (.binary c.binaryOp left right) = Expr.applyBinary c.binaryOp v w := by
  obtain ⟨l, hl, rfl⟩ := map_eq_ok hleft
  obtain ⟨r, hr, rfl⟩ := map_eq_ok hright
  rw [Expr.eval, Expr.place, hl, hr]
  · exact Expr.map_computed _
  · cases c <;> simp [binaryOp]
  · cases c <;> simp [binaryOp]

/-- A comparison of the doubles of two whole numbers is one of the numbers they are rounded to. -/
theorem holdsFloat_ofInt (c : Comparator) {i j : Int} (hi : i.natAbs < 2 ^ 64)
    (hj : j.natAbs < 2 ^ 64) :
    c.holdsFloat (Float.ofInt i) (Float.ofInt j) = c.holds (rounded i) (rounded j) := by
  cases c with
  | equal => exact ofInt_beq hi hj
  | unequal => rw [holdsFloat, ofInt_beq hi hj, holds, decide_not]
  | less => exact decide_eq_decide.mpr (ofInt_lt hi hj)
  | atMost => exact decide_eq_decide.mpr (ofInt_le hi hj)
  | greater => exact decide_eq_decide.mpr (ofInt_lt hj hi)
  | atLeast => exact decide_eq_decide.mpr (ofInt_le hj hi)

/-- Rounding changes no answer for two numbers that it keeps apart. -/
theorem holds_rounded (c : Comparator) {i j : Int} (h : rounded i = rounded j → i = j) :
    c.holds (rounded i) (rounded j) = c.holds i j := by
  have heq : rounded i = rounded j ↔ i = j := ⟨h, congrArg rounded⟩
  have hij := @rounded_mono i j
  have hji := @rounded_mono j i
  have hlt : rounded i < rounded j ↔ i < j := by omega
  have hgt : rounded j < rounded i ↔ j < i := by omega
  cases c with
  | equal => exact decide_eq_decide.mpr heq
  | unequal => exact decide_eq_decide.mpr heq.not
  | less => exact decide_eq_decide.mpr hlt
  | atMost => exact decide_eq_decide.mpr (not_lt.symm.trans (hgt.not.trans not_lt))
  | greater => exact decide_eq_decide.mpr hgt
  | atLeast => exact decide_eq_decide.mpr (not_lt.symm.trans (hlt.not.trans not_lt))

end Comparator

/-- A whole number fits into 64 bits, with or without a sign. -/
def InRange (i : Int) : Prop := -2 ^ 63 ≤ i ∧ i < 2 ^ 64

/-- Comparing the whole numbers `a` and `b` in any way gives the answers for `i` and `j`. -/
structure ComparesAs (a b i j : Int) : Prop where
  values : Json.looseEqual (.num (.whole a)) (.num (.whole b)) = decide (i = j)
  conditions (c : Comparator) {scope : Scope} {field : String} :
    scope.resolve field = some (.num (.whole a)) →
      Comparison.holds scope ⟨field, c.operator, .num (.whole b)⟩ = c.holds i j
  expressions (c : Comparator) {scope : Scope} {left right : Expr} :
    Expr.eval scope left = .ok (.num (.whole a)) → Expr.eval scope right = .ok (.num (.whole b)) →
      Expr.eval scope (.binary c.binaryOp left right) = .ok (.bool (c.holds i j))

def wholes (is : List Int) : List Json := is.map fun i => .num (.whole i)

/-- Looking for the whole number `a` among others in any way gives the answer for `i` and `js`. -/
structure FindsAs (a : Int) (others : List Int) (i : Int) (js : List Int) : Prop where
  within {scope : Scope} {field : String} :
    scope.resolve field = some (.num (.whole a)) →
      Comparison.holds scope ⟨field, .within, .arr (wholes others)⟩ = decide (i ∈ js)
  notWithin {scope : Scope} {field : String} :
    scope.resolve field = some (.num (.whole a)) →
      Comparison.holds scope ⟨field, .notWithin, .arr (wholes others)⟩ = decide (i ∉ js)
  contains {scope : Scope} {field : String} :
    scope.resolve field = some (.arr (wholes others)) →
      Comparison.holds scope ⟨field, .contains, .num (.whole a)⟩ = decide (i ∈ js)

section

variable {a b : Int} {others : List Int}

theorem InRange.natAbs_lt (h : InRange a) : a.natAbs < 2 ^ 64 := by
  have := h.1
  have := h.2
  omega

theorem looseEqual_eq (ha : InRange a) (hb : InRange b) :
    Json.looseEqual (.num (.whole a)) (.num (.whole b)) = decide (rounded a = rounded b) :=
  ofInt_beq ha.natAbs_lt hb.natAbs_lt

theorem comparesAs_rounded (ha : InRange a) (hb : InRange b) :
    ComparesAs a b (rounded a) (rounded b) where
  values := looseEqual_eq ha hb
  conditions c scope field ha' := by
    rw [Comparison.holds, ha', Option.getD_some, c.operator_holds]
    exact c.holdsFloat_ofInt ha.natAbs_lt hb.natAbs_lt
  expressions c scope left right hleft hright := by
    rw [c.eval_binary hleft hright, c.applyBinary_eq]
    exact congrArg (Except.ok <| Json.bool ·) (c.holdsFloat_ofInt ha.natAbs_lt hb.natAbs_lt)

/-- The answers are true exactly if rounding does not make the two numbers one. -/
theorem comparesAs_self_iff (ha : InRange a) (hb : InRange b) :
    ComparesAs a b a b ↔ (rounded a = rounded b → a = b) := by
  have hrounded := comparesAs_rounded ha hb
  constructor
  · intro h heq
    exact (decide_eq_decide.mp (h.values.symm.trans hrounded.values)).mpr heq
  · intro h
    exact
      { values := hrounded.values.trans (decide_eq_decide.mpr ⟨h, congrArg rounded⟩)
        conditions := fun c _ _ ha' => (hrounded.conditions c ha').trans (c.holds_rounded h)
        expressions := fun c _ _ _ hleft hright => by
          rw [hrounded.expressions c hleft hright, c.holds_rounded h] }

theorem any_eq_mem {p : Json → Bool}
    (hp : ∀ b ∈ others, p (.num (.whole b)) = decide (rounded a = rounded b)) :
    (wholes others).any p = decide (rounded a ∈ others.map rounded) := by
  rw [wholes, Bool.eq_iff_iff, decide_eq_true_iff, List.any_map, List.any_eq_true, List.mem_map]
  refine exists_congr fun b => and_congr_right fun hb => ?_
  rw [Function.comp_apply, hp b hb, decide_eq_true_iff, eq_comm]

theorem findsAs_rounded (ha : InRange a) (hothers : ∀ b ∈ others, InRange b) :
    FindsAs a others (rounded a) (others.map rounded) where
  within ha' := by
    rw [Comparison.holds, ha', Option.getD_some]
    exact any_eq_mem fun b hb => looseEqual_eq ha (hothers b hb)
  notWithin ha' := by
    rw [Comparison.holds, ha', Option.getD_some, decide_not]
    exact congrArg not (any_eq_mem fun b hb => looseEqual_eq ha (hothers b hb))
  contains hothers' := by
    rw [Comparison.holds, hothers', Option.getD_some]
    refine any_eq_mem fun b hb => ?_
    rw [looseEqual_eq (hothers b hb) ha]
    exact decide_eq_decide.mpr eq_comm

/-- The scope of a payload alone, which the path to the payload leads to. -/
theorem resolve_trigger (v : Json) : Scope.resolve ⟨v, [], [], ⟨0, 0⟩⟩ "trigger" = some v := rfl

theorem findsAs_self_iff (ha : InRange a) (hothers : ∀ b ∈ others, InRange b) :
    FindsAs a others a others ↔ (rounded a ∈ others.map rounded → a ∈ others) := by
  have hrounded := findsAs_rounded ha hothers
  constructor
  · intro h hmem
    have ha' := resolve_trigger (.num (.whole a))
    exact (decide_eq_decide.mp ((h.within ha').symm.trans (hrounded.within ha'))).mpr hmem
  · intro h
    have hiff : rounded a ∈ others.map rounded ↔ a ∈ others := ⟨h, List.mem_map_of_mem⟩
    exact
      { within := fun ha' => (hrounded.within ha').trans (decide_eq_decide.mpr hiff)
        notWithin := fun ha' => (hrounded.notWithin ha').trans (decide_eq_decide.mpr hiff.not)
        contains := fun ha' => (hrounded.contains ha').trans (decide_eq_decide.mpr hiff) }

/-- Whole numbers are compared, and looked for among others, as what they are rounded to.  That is
right of the numbers themselves exactly if no two of them become one, so it always is for a number
below `2 ^ 53`. -/
theorem compares_rounded (ha : InRange a) (hb : InRange b) (hothers : ∀ c ∈ others, InRange c) :
    ComparesAs a b (rounded a) (rounded b) ∧
      FindsAs a others (rounded a) (others.map rounded) ∧
      (ComparesAs a b a b ↔ (rounded a = rounded b → a = b)) ∧
      (FindsAs a others a others ↔ (rounded a ∈ others.map rounded → a ∈ others)) ∧
      (|a| < 2 ^ 53 → ComparesAs a b a b ∧ FindsAs a others a others) := by
  refine ⟨comparesAs_rounded ha hb, findsAs_rounded ha hothers, comparesAs_self_iff ha hb,
    findsAs_self_iff ha hothers, fun hsmall => ⟨?_, ?_⟩⟩
  · exact (comparesAs_self_iff ha hb).mpr (eq_of_rounded_eq hsmall)
  · refine (findsAs_self_iff ha hothers).mpr fun hmem => ?_
    obtain ⟨c, hc, heq⟩ := List.mem_map.mp hmem
    rwa [eq_of_rounded_eq hsmall heq.symm]

end

/-- The first whole number that is taken for another one. -/
theorem two_pow_53_compares_rounded :
    ¬ ComparesAs (2 ^ 53) (2 ^ 53 + 1) (2 ^ 53) (2 ^ 53 + 1) ∧
      ¬ FindsAs (2 ^ 53) [2 ^ 53 + 1] (2 ^ 53) [2 ^ 53 + 1] := by
  have hrange : InRange (2 ^ 53 + 1) := ⟨by decide, by decide⟩
  have hrounded : rounded (2 ^ 53) = rounded (2 ^ 53 + 1) := by decide
  have hothers : ∀ c ∈ [2 ^ 53 + 1], InRange c := List.forall_mem_singleton.mpr hrange
  obtain ⟨-, -, hcompares, hfinds, -⟩ :=
    compares_rounded (a := 2 ^ 53) ⟨by decide, by decide⟩ hrange hothers
  refine ⟨fun h => ?_, fun h => ?_⟩
  · exact absurd (hcompares.mp h hrounded) (by decide)
  · exact absurd (hfinds.mp h (List.mem_singleton.mpr hrounded)) (by decide)

end Workflow
