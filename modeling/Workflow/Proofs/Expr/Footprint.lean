import Mathlib.Data.List.Basic
import Workflow.Condition

/-!
# What conditions look at

A condition names the outputs that it looks at, unless it takes all outputs at once or works out at
which one to look.  If it names them, then it holds in a scope or not whatever the outputs of other
nodes are; and if it does not ask for the time either, at whatever instant.
-/

namespace Workflow

variable {seen : String → Prop} {timed : Prop} {scope scope' : Scope}

/-- Two scopes are the same but for the outputs of nodes that are not seen and, if the time is not
looked at, but for the instant. -/
structure Scope.Agree (seen : String → Prop) (timed : Prop) (scope scope' : Scope) : Prop where
  trigger : scope.trigger = scope'.trigger
  bindings : scope.bindings = scope'.bindings
  nodes : ∀ id, seen id → Keyed.get? id scope.nodes = Keyed.get? id scope'.nodes
  now : timed → scope.now = scope'.now

theorem Scope.Agree.weaken {seen' : String → Prop} {timed' : Prop}
    (h : scope.Agree seen timed scope') (hseen : ∀ id, seen' id → seen id)
    (htimed : timed' → timed) : scope.Agree seen' timed' scope' :=
  ⟨h.trigger, h.bindings, fun id hid => h.nodes id (hseen id hid), fun hnow => h.now (htimed hnow)⟩

/-! ### Paths -/

/-- A path does not lead to outputs, or to one that is seen. -/
def Path.Sees (seen : String → Prop) (path : String) : Prop :=
  ∀ name segments, Text.splitAt '.' (Text.trim path) = name :: segments →
    Root.ofName? name = some .nodes → ∃ id rest, segments = id :: rest ∧ seen id

theorem Scope.Agree.resolve (h : scope.Agree seen timed scope') {path : String}
    (hpath : Path.Sees seen path) : scope.resolve path = scope'.resolve path := by
  rw [Scope.resolve, Scope.resolve]
  cases hsplit : Text.splitAt '.' (Text.trim path) with
  | nil => rfl
  | cons name segments =>
      cases hroot : Root.ofName? name with
      | none => simp only [hroot, Option.bind_none]
      | some root =>
          simp only [hroot, Option.bind_some]
          cases root with
          | trigger | event => rw [Scope.root, Scope.root, h.trigger]
          | bindings => rw [Scope.root, Scope.root, h.bindings]
          | nodes =>
              obtain ⟨id, rest, rfl, hid⟩ := hpath name segments hsplit hroot
              simp only [Scope.root, Json.walk, Json.step, h.nodes id hid]

/-! ### Expressions -/

namespace Expr

/-- An expression takes no outputs but by names that are seen, and asks for the time only if that is
allowed. -/
inductive Sees (seen : String → Prop) (timed : Prop) : Expr → Prop where
  | literal (v : Json) : Sees seen timed (.literal v)
  | root {r : Root} (hroot : r ≠ .nodes) : Sees seen timed (.root r)
  | output {id : String} (hid : seen id) : Sees seen timed (.member (.root .nodes) id)
  | outputAt {id : String} (hid : seen id) :
      Sees seen timed (.index (.root .nodes) (.literal (.str id)))
  | member {object : Expr} {key : String} (hobject : Sees seen timed object) :
      Sees seen timed (.member object key)
  | index {object position : Expr} (hobject : Sees seen timed object)
      (hposition : Sees seen timed position) : Sees seen timed (.index object position)
  | array {items : List Expr} (hitems : ∀ e ∈ items, Sees seen timed e) :
      Sees seen timed (.array items)
  | call {helper : Helper} {args : List Expr} (hnow : helper = .now → timed)
      (hargs : ∀ e ∈ args, Sees seen timed e) : Sees seen timed (.call helper args)
  | unary {op : UnaryOp} {operand : Expr} (hoperand : Sees seen timed operand) :
      Sees seen timed (.unary op operand)
  | binary {op : BinaryOp} {left right : Expr} (hleft : Sees seen timed left)
      (hright : Sees seen timed right) : Sees seen timed (.binary op left right)
  | conditional {condition thenExpr elseExpr : Expr} (hcondition : Sees seen timed condition)
      (hthen : Sees seen timed thenExpr) (helse : Sees seen timed elseExpr) :
      Sees seen timed (.conditional condition thenExpr elseExpr)

theorem values_congr {es : List Expr} (h : ∀ e ∈ es, place scope e = place scope' e) :
    values scope es = values scope' es := by
  induction es with
  | nil => rfl
  | cons e rest ih =>
      rw [values, values, h e List.mem_cons_self,
        ih fun e he => h e (List.mem_cons_of_mem _ he)]

theorem applyHelper_congr {helper : Helper} {now now' : Time.Instant}
    (h : helper = .now → now = now') (args : List Json) :
    applyHelper now helper args = applyHelper now' helper args := by
  cases helper with
  | now => rw [h rfl]
  | _ => rfl

/-- An expression comes to the same place in scopes that agree on what it sees. -/
theorem Sees.place_eq {e : Expr} (he : e.Sees seen timed) (h : scope.Agree seen timed scope') :
    place scope e = place scope' e := by
  induction he with
  | literal v => rfl
  | @root r hroot =>
      cases r with
      | trigger | event => rw [place, place, Place.ofRoot, Place.ofRoot, h.trigger]
      | bindings => rw [place, place, Place.ofRoot, Place.ofRoot, h.bindings]
      | nodes => exact absurd rfl hroot
  | @output id hid =>
      have hpart : (Place.members scope.nodes).member id = (Place.members scope'.nodes).member id :=
        congrArg Place.ofPart? (h.nodes id hid)
      exact congrArg Except.ok hpart
  | @outputAt id hid =>
      have hpart : (Place.members scope.nodes).member id = (Place.members scope'.nodes).member id :=
        congrArg Place.ofPart? (h.nodes id hid)
      exact congrArg Except.ok hpart
  | member _ ih => rw [place, place, ih]
  | index _ _ ihObject ihPosition => rw [place, place, ihObject, ihPosition]
  | array _ ih => rw [place, place, values_congr ih]
  | @call helper args hnow _ ih =>
      have hhelper (vs : List Json) := applyHelper_congr (fun heq => h.now (hnow heq)) vs
      simp only [place, values_congr ih, hhelper]
  | @unary op operand _ ih => cases op <;> simp only [place, ih]
  | @binary op left right _ _ ihLeft ihRight =>
      cases op <;> simp only [place, ihLeft, ihRight]
  | conditional _ _ _ ihCondition ihThen ihElse =>
      simp only [place, ihCondition, ihThen, ihElse]

theorem Sees.evaluate?_eq {source : String}
    (hsource : ∀ e, parse source = .ok e → e.Sees seen timed) (h : scope.Agree seen timed scope') :
    evaluate? scope source = evaluate? scope' source := by
  rw [evaluate?, evaluate?, evaluate, evaluate]
  cases hparse : parse source with
  | error e => rfl
  | ok e => simp only [eval, (hsource e hparse).place_eq h]

end Expr

/-! ### Conditions -/

namespace Condition

/-- All paths and expressions of a condition name the outputs that they look at. -/
inductive Sees (seen : String → Prop) (timed : Prop) : Condition → Prop where
  | simple {c : Comparison} (hfield : Path.Sees seen c.field) : Sees seen timed (.simple c)
  | expression {source : String}
      (hsource : ∀ e, Expr.parse source = .ok e → e.Sees seen timed) :
      Sees seen timed (.expression source)
  | all {cs : List Condition} (hcs : ∀ c ∈ cs, Sees seen timed c) : Sees seen timed (.all cs)
  | any {cs : List Condition} (hcs : ∀ c ∈ cs, Sees seen timed c) : Sees seen timed (.any cs)
  | none {cs : List Condition} (hcs : ∀ c ∈ cs, Sees seen timed c) : Sees seen timed (.none cs)

theorem allHold_congr {cs : List Condition} (h : ∀ c ∈ cs, c.holds scope = c.holds scope') :
    allHold scope cs = allHold scope' cs := by
  induction cs with
  | nil => rfl
  | cons c rest ih =>
      rw [allHold, allHold, h c List.mem_cons_self,
        ih fun c hc => h c (List.mem_cons_of_mem _ hc)]

theorem anyHolds_congr {cs : List Condition} (h : ∀ c ∈ cs, c.holds scope = c.holds scope') :
    anyHolds scope cs = anyHolds scope' cs := by
  induction cs with
  | nil => rfl
  | cons c rest ih =>
      rw [anyHolds, anyHolds, h c List.mem_cons_self,
        ih fun c hc => h c (List.mem_cons_of_mem _ hc)]

/-- A condition holds in both or in none of two scopes that agree on what it sees. -/
theorem Sees.holds_eq {c : Condition} (hc : c.Sees seen timed) (h : scope.Agree seen timed scope') :
    c.holds scope = c.holds scope' := by
  induction hc with
  | simple hfield => rw [holds, holds, Comparison.holds, Comparison.holds, h.resolve hfield]
  | expression hsource => simp only [holds, Expr.Sees.evaluate?_eq hsource h]
  | all _ ih => rw [holds, holds, allHold_congr ih]
  | any _ ih => rw [holds, holds, anyHolds_congr ih]
  | none _ ih => rw [holds, holds, anyHolds_congr ih]

end Condition

end Workflow
