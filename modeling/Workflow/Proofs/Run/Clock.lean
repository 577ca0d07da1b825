import Workflow.Proofs.Run.Setting

/-!
# Asking for the time

Expressions see the clock by a single helper, and paths and templates not at all.  So a workflow in
which no expression calls that helper does the same at whatever instants the clock is read.
-/

namespace Workflow

/-- The same scope at another instant. -/
def Scope.on (scope : Scope) (now : Time.Instant) : Scope := { scope with now }

variable (scope : Scope) (now : Time.Instant)

theorem Scope.resolve_on (path : String) : (scope.on now).resolve path = scope.resolve path := by
  have hroot : (scope.on now).root = scope.root := by
    funext root
    cases root <;> rfl
  rw [Scope.resolve, Scope.resolve, hroot]

/-! ### Expressions -/

namespace Expr

mutual

def asksTime : Expr → Bool
  | .literal _ => false
  | .root _ => false
  | .member object _ => object.asksTime
  | .index object position => object.asksTime || position.asksTime
  | .array items => anyAsksTime items
  | .call helper args => helper = .now || anyAsksTime args
  | .unary _ operand => operand.asksTime
  | .binary _ left right => left.asksTime || right.asksTime
  | .conditional condition thenExpr elseExpr =>
    condition.asksTime || thenExpr.asksTime || elseExpr.asksTime

def anyAsksTime : List Expr → Bool
  | [] => false
  | e :: rest => e.asksTime || anyAsksTime rest

end

theorem applyHelper_of_ne {helper : Helper} (h : helper ≠ .now) (now now' : Time.Instant)
    (args : List Json) : applyHelper now helper args = applyHelper now' helper args := by
  cases helper with
  | now => exact absurd rfl h
  | _ => rfl

mutual

theorem place_on : ∀ e : Expr, e.asksTime = false → place (scope.on now) e = place scope e
  | .literal _, _ => rfl
  | .root r, _ => by cases r <;> rfl
  | .member object key, h => by
      rw [asksTime] at h
      rw [place, place, place_on object h]
  | .index object position, h => by
      rw [asksTime, Bool.or_eq_false_iff] at h
      rw [place, place, place_on object h.1, place_on position h.2]
  | .array items, h => by
      rw [asksTime] at h
      rw [place, place, values_on items h]
  | .call helper args, h => by
      rw [asksTime, Bool.or_eq_false_iff, decide_eq_false_iff_not] at h
      have hhelper := applyHelper_of_ne h.1 (scope.on now).now scope.now
      simp only [place, values_on args h.2, hhelper]
  | .unary op operand, h => by
      rw [asksTime] at h
      cases op <;> simp only [place, place_on operand h]
  | .binary op left right, h => by
      rw [asksTime, Bool.or_eq_false_iff] at h
      cases op <;> simp only [place, place_on left h.1, place_on right h.2]
  | .conditional condition thenExpr elseExpr, h => by
      rw [asksTime, Bool.or_eq_false_iff, Bool.or_eq_false_iff] at h
      obtain ⟨⟨hcondition, hthen⟩, helse⟩ := h
      simp only [place, place_on condition hcondition, place_on thenExpr hthen,
        place_on elseExpr helse]

theorem values_on : ∀ es : List Expr, anyAsksTime es = false →
    values (scope.on now) es = values scope es
  | [], _ => rfl
  | e :: rest, h => by
      rw [anyAsksTime, Bool.or_eq_false_iff] at h
      rw [values, values, place_on e h.1, values_on rest h.2]

end

/-- Whether a text asks for the time as an expression; if it is none it does not. -/
def textAsksTime (source : String) : Bool :=
  match parse source with
  | .ok e => e.asksTime
  | .error _ => false

theorem evaluate?_on {source : String} (h : textAsksTime source = false) :
    evaluate? (scope.on now) source = evaluate? scope source := by
  rw [textAsksTime] at h
  rw [evaluate?, evaluate?, evaluate, evaluate]
  cases hparse : parse source with
  | error e => rfl
  | ok e =>
      rw [hparse] at h
      simp only [eval, place_on scope now e h]

end Expr

/-! ### Conditions -/

namespace Condition

mutual

def asksTime : Condition → Bool
  | .simple _ => false
  | .expression source => Expr.textAsksTime source
  | .all cs => anyAsksTime cs
  | .any cs => anyAsksTime cs
  | .none cs => anyAsksTime cs

def anyAsksTime : List Condition → Bool
  | [] => false
  | c :: rest => c.asksTime || anyAsksTime rest

end

mutual

theorem holds_on : ∀ c : Condition, c.asksTime = false → holds (scope.on now) c = holds scope c
  | .simple c, _ => by
      rw [holds, holds, Comparison.holds, Comparison.holds, Scope.resolve_on]
  | .expression source, h => by
      rw [asksTime] at h
      rw [holds, holds, Expr.evaluate?_on scope now h]
  | .all cs, h => by
      rw [asksTime] at h
      rw [holds, holds, allHold_on cs h]
  | .any cs, h => by
      rw [asksTime] at h
      rw [holds, holds, anyHolds_on cs h]
  | .none cs, h => by
      rw [asksTime] at h
      rw [holds, holds, anyHolds_on cs h]

theorem allHold_on : ∀ cs : List Condition, anyAsksTime cs = false →
    allHold (scope.on now) cs = allHold scope cs
  | [], _ => rfl
  | c :: rest, h => by
      rw [anyAsksTime, Bool.or_eq_false_iff] at h
      rw [allHold, allHold, holds_on c h.1, allHold_on rest h.2]

theorem anyHolds_on : ∀ cs : List Condition, anyAsksTime cs = false →
    anyHolds (scope.on now) cs = anyHolds scope cs
  | [], _ => rfl
  | c :: rest, h => by
      rw [anyAsksTime, Bool.or_eq_false_iff] at h
      rw [anyHolds, anyHolds, holds_on c h.1, anyHolds_on rest h.2]

end

end Condition

/-! ### Mappings -/

theorem Template.fill_on (template : String) :
    Template.fill (scope.on now) template = Template.fill scope template := by
  have hshown : Template.shown (scope.on now) = Template.shown scope := by
    funext path
    rw [Template.shown, Template.shown, Scope.resolve_on]
  rw [Template.fill, Template.fill, hshown]

namespace Mapping

def Entry.asksTime : Entry → Bool
  | .typed (.expression source) => Expr.textAsksTime source
  | _ => false

def asksTime (entries : Keyed Entry) : Bool := entries.any fun e => e.2.asksTime

theorem Entry.resolve_on {e : Entry} (h : e.asksTime = false) :
    e.resolve (scope.on now) = e.resolve scope := by
  rw [Entry.resolve, Entry.resolve]
  cases e with
  | literal v => rfl
  | shorthand text => rw [Entry.resolve?, Entry.resolve?, Template.fill_on]
  | typed t =>
      cases t with
      | fixed v => rfl
      | reference path => rw [Entry.resolve?, Entry.resolve?, Scope.resolve_on]
      | expression source =>
          rw [Entry.resolve?, Entry.resolve?, Expr.evaluate?_on scope now h]
      | template text => rw [Entry.resolve?, Entry.resolve?, Template.fill_on]

theorem resolve_on {entries : Keyed Entry} (h : asksTime entries = false) :
    resolve (scope.on now) entries = resolve scope entries := by
  refine List.map_congr_left fun e he => ?_
  have hentry : e.2.asksTime = false := by
    rw [asksTime, List.any_eq_false] at h
    exact Bool.eq_false_iff.mpr (h e he)
  rw [Entry.resolve_on scope now hentry]

end Mapping

/-! ### Workflows -/

/-- Whether a node asks for the time when it is executed. -/
def Node.asksTime (node : Node) : Bool :=
  match node.type with
  | .condition => (node.read conditionConfig).toOption.any Condition.asksTime
  | .primitive => (node.read PrimitiveConfig.decoder).toOption.any (Mapping.asksTime ·.mapping)
  | .output => (node.read outputConfig).toOption.any Mapping.asksTime
  | _ => false

/-- Whether a guard or a node of a workflow asks for the time. -/
def Definition.asksTime (d : Definition) : Bool :=
  d.edges.any (fun e => e.guard.any Condition.asksTime) || d.nodes.any Node.asksTime

/-- A workflow that does not ask for the time does the same whatever the clock shows. -/
theorem Setting.timeless_of_asksTime (k : Setting) {d : Definition} (h : d.asksTime = false) :
    k.Timeless d := by
  rw [Definition.asksTime, Bool.or_eq_false_iff, List.any_eq_false, List.any_eq_false] at h
  obtain ⟨hedges, hnodes⟩ := h
  have hnode : ∀ node ∈ d.nodes, node.asksTime = false :=
    fun node hmem => Bool.eq_false_iff.mpr (hnodes node hmem)
  refine ⟨fun e he guard hguard c now now' _ _ => ?_,
    fun node hmem condition htype hread c now now' _ _ => ?_,
    fun node hmem config htype hread c now now' _ _ => ?_,
    fun node hmem mapping htype hread c now now' _ _ => ?_⟩
  · have hasks : guard.asksTime = false := by
      have hedge := hedges e he
      rw [hguard] at hedge
      exact Bool.eq_false_iff.mpr hedge
    exact Condition.holds_on (c.scope now') now guard hasks
  · have hasks := hnode node hmem
    rw [Node.asksTime, htype] at hasks
    simp only [hread] at hasks
    exact Condition.holds_on (c.scope now') now condition hasks
  · have hasks := hnode node hmem
    rw [Node.asksTime, htype] at hasks
    simp only [hread] at hasks
    exact Mapping.resolve_on (c.scope now') now hasks
  · have hasks := hnode node hmem
    rw [Node.asksTime, htype] at hasks
    simp only [hread] at hasks
    exact Mapping.resolve_on (c.scope now') now hasks

end Workflow
