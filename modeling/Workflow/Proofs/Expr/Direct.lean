import Workflow.Expr.Eval

/-!
# Following paths by value

An expression that names a path is followed inside the values of the scope, and a value is taken out
at the end only.  Here each step is taken on a value of its own instead: first the object, and then
what is selected from it.  Both ways come to the same value or to the same failure, so where a place
points to is never seen in a result.
-/

namespace Workflow

/-! ### Selecting from a value -/

namespace Json

/-- What a value has under a key, or null if it has nothing there. -/
def selectKey (key : String) : Json → Json
  | .obj fields => .ofOption (Keyed.get? key fields)
  | .arr items =>
    if key = "length" then .ofNat items.length
    else .ofOption ((index? key).bind fun i => items[i]?)
  | .str s => if key = "length" then .ofNat s.length else .null
  | _ => .null

/-- What a value has at a position: under a key, or at the index of an item. -/
def select (v position : Json) : Json :=
  match v, position with
  | v, .str key => v.selectKey key
  | .arr items, .num (.whole (.ofNat i)) => .ofOption items[i]?
  | _, _ => .null

end Json

namespace Expr

mutual

/-- The value of an expression whose paths are followed by value. -/
def direct (scope : Scope) : Expr → Except EvalError Json
  | .literal v => .ok v
  | .root r => .ok (scope.root r)
  | .member object key => do
    let v ← direct scope object
    .ok (v.selectKey key)
  | .index object position => do
    let v ← direct scope object
    let i ← direct scope position
    .ok (v.select i)
  | .array items => do
    let vs ← directAll scope items
    .ok (.arr vs)
  | .call helper args => do
    let vs ← directAll scope args
    applyHelper scope.now helper vs
  | .unary .not operand => do
    let v ← direct scope operand
    .ok (.bool !v.truthy)
  | .unary .neg operand => do
    let v ← direct scope operand
    match floatOf? v with
    | some x => numeric (-x)
    | none => .error .negation
  | .binary .and left right => do
    let l ← direct scope left
    if l.truthy then direct scope right else .ok l
  | .binary .or left right => do
    let l ← direct scope left
    if l.truthy then .ok l else direct scope right
  | .binary op left right => do
    let l ← direct scope left
    let r ← direct scope right
    applyBinary op l r
  | .conditional condition thenExpr elseExpr => do
    let c ← direct scope condition
    if c.truthy then direct scope thenExpr else direct scope elseExpr

def directAll (scope : Scope) : List Expr → Except EvalError (List Json)
  | [] => .ok []
  | e :: rest => do
    let v ← direct scope e
    let vs ← directAll scope rest
    .ok (v :: vs)

end

/-! ### Steps of places -/

namespace Place

variable {key : String}

theorem toJson_ofPart? (v? : Option Json) : (ofPart? v?).toJson = .ofOption v? := by
  cases v? <;> rfl

theorem memberOf_eq_selectKey (key : String) (v : Json) : memberOf key v = v.selectKey key := by
  cases v with
  | str s =>
      rw [memberOf, Json.selectKey]
      rfl
  | _ => rfl

theorem toJson_member_part (key : String) (v : Json) :
    ((part v).member key).toJson = memberOf key v := by
  by_cases hkey : key = "length"
  · -- Only arrays and texts have a length; an object may have a member of that name.
    cases v with
    | arr items => simp [member, memberOf, hkey, toJson]
    | str s => simp [member, memberOf, hkey, toJson]
    | obj fields => exact toJson_ofPart? _
    | _ => rfl
  · cases v <;> simp [member, memberOf, hkey, toJson_ofPart?]

/-- What is pointed to after a step is what is selected from the value before it. -/
theorem toJson_member (key : String) (p : Place) :
    (p.member key).toJson = p.toJson.selectKey key := by
  cases p with
  | members fields => exact toJson_ofPart? _
  | part v => exact (toJson_member_part key v).trans (memberOf_eq_selectKey key v)
  | computed v => exact memberOf_eq_selectKey key v

theorem toJson_index (position : Json) (p : Place) :
    (p.index position).toJson = p.toJson.select position := by
  cases position with
  | str key =>
      rw [index, toJson_member]
      cases p.toJson <;> rfl
  | num n =>
      -- Only arrays have items, and only at whole numbers that are not negative.
      cases n with
      | double x => cases p.toJson <;> rfl
      | whole i =>
          cases i with
          | negSucc i =>
              unfold index
              simp only [if_pos (Int.negSucc_lt_zero i)]
              cases p.toJson <;> rfl
          | ofNat i =>
              cases p with
              | members fields => rfl
              | part v =>
                  cases v with
                  | arr items => exact toJson_ofPart? _
                  | _ => rfl
              | computed v => cases v <;> rfl
  | _ => cases p.toJson <;> rfl

theorem toJson_ofRoot (scope : Scope) (r : Root) : (ofRoot scope r).toJson = scope.root r := by
  cases r <;> rfl

end Place

/-! ### The two evaluations -/

section

variable {scope : Scope}

/-- What a step makes of a place, it makes of the value there. -/
theorem map_bind_toJson {x : Except EvalError Place} {f : Place → Except EvalError Place}
    {g : Json → Except EvalError Json} (h : ∀ p, (f p).map Place.toJson = g p.toJson) :
    (x >>= f).map Place.toJson = x.map Place.toJson >>= g := by
  cases x with
  | error e => rfl
  | ok p => exact h p

theorem map_computed (x : Except EvalError Json) :
    (x >>= fun v => .ok (.computed v)).map Place.toJson = x := by
  cases x <;> rfl

/-- It makes no difference to a value whether it is taken out at once. -/
theorem map_taken (x : Except EvalError Place) :
    (x >>= fun p => .ok (.computed p.toJson)).map Place.toJson = x.map Place.toJson := by
  cases x <;> rfl

mutual

theorem map_place (scope : Scope) (e : Expr) :
    (place scope e).map Place.toJson = direct scope e := by
  cases e with
  | literal v => rfl
  | root r => exact congrArg Except.ok (Place.toJson_ofRoot scope r)
  | member object key =>
      rw [place, direct, ← map_place scope object]
      exact map_bind_toJson fun p => congrArg Except.ok (Place.toJson_member key p)
  | index object position =>
      rw [place, direct, ← map_place scope object, ← map_place scope position]
      refine map_bind_toJson fun p => map_bind_toJson fun i => ?_
      exact congrArg Except.ok (Place.toJson_index i.toJson p)
  | array items =>
      rw [place, direct, ← values_eq_directAll scope items]
      cases values scope items <;> rfl
  | call helper args =>
      rw [place, direct, ← values_eq_directAll scope args]
      cases values scope args with
      | error e => rfl
      | ok vs => exact map_computed _
  | unary op operand =>
      cases op with
      | not =>
          rw [place, direct, ← map_place scope operand]
          exact map_bind_toJson fun p => rfl
      | neg =>
          rw [place, direct, ← map_place scope operand]
          refine map_bind_toJson fun p => ?_
          cases floatOf? p.toJson with
          | none => rfl
          | some x => exact map_computed _
  | binary op left right =>
      cases op with
      | and =>
          rw [place, direct, ← map_place scope left, ← map_place scope right]
          refine map_bind_toJson fun l => ?_
          split
          · exact map_taken _
          · rfl
      | or =>
          rw [place, direct, ← map_place scope left, ← map_place scope right]
          refine map_bind_toJson fun l => ?_
          split
          · rfl
          · exact map_taken _
      | _ =>
          rw [place, direct, ← map_place scope left, ← map_place scope right]
          · exact map_bind_toJson fun l => map_bind_toJson fun r => map_computed _
          all_goals simp
  | conditional condition thenExpr elseExpr =>
      rw [place, direct, ← map_place scope condition, ← map_place scope thenExpr,
        ← map_place scope elseExpr]
      refine map_bind_toJson fun c => ?_
      split
      · exact map_taken _
      · exact map_taken _

theorem values_eq_directAll (scope : Scope) (es : List Expr) :
    values scope es = directAll scope es := by
  cases es with
  | nil => rfl
  | cons e rest =>
      rw [values, directAll, ← map_place scope e, ← values_eq_directAll scope rest]
      cases place scope e <;> rfl

end

/-- Following paths inside the scope changes no result: an expression has the value that it has when
each object on its paths is taken out before anything is selected from it, and it fails in the same
way. -/
theorem eval_eq_direct (scope : Scope) (e : Expr) : eval scope e = direct scope e :=
  map_place scope e

end

end Expr

end Workflow
