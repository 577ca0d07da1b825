import Workflow.Proofs.Expr.Footprint
import Workflow.Proofs.Run.History
import Workflow.Proofs.Run.Trail

/-!
# How guards are judged

The edges that leave a node are judged one after another, each in the context that the sub-graphs
behind the edges before it have left.  A guard is meant to be judged in the context after its own
node.  It is, if it names the outputs that it looks at and none of them is of a node that ran behind
an earlier sibling.  If all guards look at no outputs but those that were there when the node had
run, then it does not matter in which order the edges stand; otherwise it may decide.
-/

namespace Workflow

variable {H : Type}

/-- What became of an edge that leaves a node: what was asked to judge it, whether it was followed,
and what ran behind it, with which results, and what was done there. -/
structure Verdict (H : Type) where
  edge : Edge
  asked : History (Call H)
  followed : Bool
  trail : Trail
  results : List NodeResult
  done : History (Call H)

namespace Verdict

/-- What ran behind several edges. -/
def trails (vs : List (Verdict H)) : Trail := vs.flatMap Verdict.trail

/-- The edges that were followed. -/
def taken (vs : List (Verdict H)) : List Edge := (vs.filter Verdict.followed).map Verdict.edge

/-- All that was done to judge several edges, and behind them. -/
def history (vs : List (Verdict H)) : History (Call H) :=
  (vs.map fun v => v.asked + v.done).sum

end Verdict

open Verdict Proc

namespace Walk

variable {w : Walk H} {visit : Visitor H} {choose : Edge → Context → Proc (Call H) Bool}
  {node : Node} {output : Json} {edges : List Edge} {e : Edge} {v : Verdict H}
  {vs before after : List (Verdict H)} {c c' : Context} {results own : List NodeResult}
  {h : History (Call H)}

/-! ### What a visit leaves -/

/-- Visits that do not fail leave trails of nodes that had not run, and then their nodes have
run. -/
def LeavesTrails (visit : Visitor H) : Prop :=
  ∀ nodeId c results c' h, (visit nodeId c).Does ⟨results, .ok c'⟩ h →
    ∃ t : Trail, c' = c.after t ∧ (∀ id ∈ t.ids, id ∉ c.executed) ∧ nodeId ∈ c'.executed

/-- A verdict that is given in a context.  If the edge is followed, then what ran behind it is what
a visit of its target has run there, and nothing else was done; if it is not, nothing was. -/
structure Given (visit : Visitor H) (choose : Edge → Context → Proc (Call H) Bool) (c : Context)
    (v : Verdict H) : Prop where
  judged : (choose v.edge c).Does v.followed v.asked
  visited : v.followed = true →
    (visit v.edge.target c).Does ⟨v.results, .ok (c.after v.trail)⟩ v.done
  spared : v.followed = false → v.trail = [] ∧ v.results = [] ∧ v.done = 0
  fresh : ∀ id ∈ v.trail.ids, id ∉ c.executed
  ran : v.followed = true → v.edge.target ∈ (c.after v.trail).executed

/-- The verdicts on the edges that leave a node, each given in the context that is left by what ran
behind those before. -/
inductive Judged (visit : Visitor H) (choose : Edge → Context → Proc (Call H) Bool) :
    Context → List (Verdict H) → Prop where
  | nil (c : Context) : Judged visit choose c []
  | cons {c : Context} {v : Verdict H} {vs : List (Verdict H)} :
      Given visit choose c v → Judged visit choose (c.after v.trail) vs →
        Judged visit choose c (v :: vs)

/-- Where edges are followed and none fails, there is a verdict on each of them, and there is
nothing else in the results and in what was done. -/
theorem judged_of_follow (hvisit : LeavesTrails visit)
    (hdoes : (follow visit choose edges c own).Does ⟨results, .ok c'⟩ h) :
    ∃ vs, vs.map Verdict.edge = edges ∧ Judged visit choose c vs ∧ c' = c.after (trails vs) ∧
      results = own ++ vs.flatMap Verdict.results ∧ h = history vs := by
  induction edges generalizing c own h with
  | nil =>
      obtain ⟨hdone, rfl⟩ := hdoes
      obtain ⟨rfl, hending⟩ := Visited.mk.inj hdone
      obtain rfl := Except.ok.inj hending
      exact ⟨[], rfl, .nil c, rfl, (List.append_nil own).symm, rfl⟩
  | cons e rest ih =>
      rw [follow] at hdoes
      obtain ⟨chosen, asked, _, hasked, hnext, rfl⟩ := does_bind.mp hdoes
      cases chosen with
      | false =>
          obtain ⟨vs, hedges, hjudged, hafter, hresults, rfl⟩ := ih hnext
          let v : Verdict H := ⟨e, asked, false, [], [], 0⟩
          have hpassed : v.followed ≠ true := Bool.false_ne_true
          have hgiven : Given visit choose c v :=
            ⟨hasked, (absurd · hpassed), fun _ => ⟨rfl, rfl, rfl⟩, List.forall_mem_nil _,
              (absurd · hpassed)⟩
          refine ⟨v :: vs, by rw [List.map_cons, hedges], .cons hgiven hjudged, hafter, hresults,
            ?_⟩
          rw [history, history, List.map_cons, List.sum_cons, add_zero]
      | true =>
          obtain ⟨⟨inner, failure | last⟩, visited, _, hvisited, hrest, rfl⟩ := does_bind.mp hnext
          · cases hrest.1
          · obtain ⟨t, rfl, hfresh, hran⟩ := hvisit _ _ _ _ _ hvisited
            obtain ⟨vs, hedges, hjudged, hafter, hresults, rfl⟩ := ih hrest
            let v : Verdict H := ⟨e, asked, true, t, inner, visited⟩
            have htaken : v.followed ≠ false := Bool.false_ne_true.symm
            have hgiven : Given visit choose c v :=
              ⟨hasked, fun _ => hvisited, (absurd · htaken), hfresh, fun _ => hran⟩
            refine ⟨v :: vs, by rw [List.map_cons, hedges], .cons hgiven hjudged, ?_, ?_, ?_⟩
            · rw [hafter, trails, trails, List.flatMap_cons, Context.after_append]
            · rw [hresults, List.flatMap_cons, List.append_assoc]
            · rw [history, history, List.map_cons, List.sum_cons, add_assoc]

namespace Judged

theorem fresh (h : Judged visit choose c vs) : ∀ id ∈ (trails vs).ids, id ∉ c.executed := by
  induction h with
  | nil c => exact List.forall_mem_nil _
  | @cons c v vs hgiven _ ih =>
      intro id hid
      rw [trails, List.flatMap_cons, Trail.ids_append, List.mem_append] at hid
      rcases hid with hid | hid
      · exact hgiven.fresh id hid
      · -- What later siblings run was fresh behind this edge, and so it was before.
        have hlater := ih id hid
        rw [Context.executed_after, List.mem_append, not_or] at hlater
        exact hlater.1

/-- Each verdict is given behind those before it. -/
theorem given (h : Judged visit choose c (before ++ v :: after)) :
    Given visit choose (c.after (trails before)) v := by
  induction before generalizing c with
  | nil =>
      cases h with
      | cons hgiven _ => exact hgiven
  | cons first before ih =>
      cases h with
      | cons _ hrest =>
          rw [trails, List.flatMap_cons, Context.after_append]
          exact ih hrest

end Judged

/-- What is done for a node itself, which has an output in the end: its run was not told to stop,
the node was executed, and its result was noted. -/
inductive Outputs (w : Walk H) (visit : Visitor H) (node : Node) (c : Context) (output : Json) :
    List NodeResult → History (Call H) → Prop where
  | executed {startedAt finishedAt : Time.Instant} {inner : List NodeResult}
      {h : History (Call H)} :
      (w.execute visit node c startedAt).Does ⟨inner, .ok output⟩ h →
        Outputs w visit node c output
          (inner ++
            [⟨node.id, node.type, .ok output, startedAt, elapsedMillis startedAt finishedAt⟩])
          ({.called .clock startedAt} + ({.called (.here (.isStopped c.executionId)) false} +
            (h + {.called .clock finishedAt})))

/-- A visit that does not fail skips a node that has run, or leaves one that has an output. -/
theorem visit_cases {room : Nat} {nodeId : String}
    (hdoes : (w.visit room nodeId c).Does ⟨results, .ok c'⟩ h) :
    (c.hasExecuted nodeId = true ∧ c' = c) ∨
    ∃ less node output own ran left, room = less + 1 ∧ w.workflow.node? nodeId = some node ∧
      c.hasExecuted nodeId = false ∧ w.Outputs (w.visit less) node c output own ran ∧
      (follow (w.visit less) (follows node output) (w.workflow.outgoing nodeId)
        (c.withOutput nodeId output) own).Does ⟨results, .ok c'⟩ left ∧ h = ran + left := by
  cases room with
  | zero => cases hdoes.1
  | succ room =>
      rw [visit_succ] at hdoes
      cases hnode : w.workflow.node? nodeId with
      | none =>
          rw [hnode] at hdoes
          cases hdoes.1
      | some node =>
          obtain rfl := Definition.id_of_node? hnode
          simp only [hnode, arrive] at hdoes
          cases hnew : c.hasExecuted node.id with
          | true =>
              rw [hnew, if_pos rfl] at hdoes
              obtain ⟨hdone, -⟩ := hdoes
              exact .inl ⟨rfl, (Except.ok.inj (Visited.mk.inj hdone).2).symm⟩
          | false =>
              rw [hnew, if_neg Bool.false_ne_true] at hdoes
              obtain ⟨startedAt, _, hpolled, rfl⟩ := does_ask.mp hdoes
              obtain ⟨stopped, _, hnext, rfl⟩ := does_ask.mp hpolled
              cases stopped with
              | true => cases hnext.1
              | false =>
                  obtain ⟨⟨inner, e | output⟩, ran, _, hran, hrest, rfl⟩ := does_bind.mp hnext
                  · obtain ⟨_, _, hfailed, -⟩ := does_ask.mp hrest
                    cases hfailed.1
                  · obtain ⟨finishedAt, left, hleft, rfl⟩ := does_ask.mp hrest
                    refine .inr ⟨room, node, output, _, _, left, rfl, rfl, rfl, .executed hran,
                      hleft, ?_⟩
                    simp only [add_assoc]

theorem visit_leavesTrails (w : Walk H) (room : Nat) : LeavesTrails (w.visit room) := by
  induction room with
  | zero =>
      intro nodeId c results c' h hdoes
      cases hdoes.1
  | succ room ih =>
      intro nodeId c results c' h hdoes
      rcases visit_cases hdoes with ⟨hold, rfl⟩ |
        ⟨less, node, output, own, ran, left, hroom, hnode, hnew, -, hleft, -⟩
      · exact ⟨[], rfl, List.forall_mem_nil _, Context.hasExecuted_eq_true.mp hold⟩
      · obtain rfl : room = less := Nat.succ.inj hroom
        obtain rfl := Definition.id_of_node? hnode
        obtain ⟨vs, -, hjudged, rfl, -, -⟩ := judged_of_follow ih hleft
        let leg : Leg := ⟨node, output, [], c.startedAt, 0⟩
        refine ⟨leg :: trails vs, rfl, fun id hid => ?_, ?_⟩
        · rcases List.mem_cons.mp hid with rfl | hid
          · exact Context.hasExecuted_eq_false.mp hnew
          · have hlater := hjudged.fresh id hid
            rw [Context.withOutput, List.mem_append, not_or] at hlater
            exact hlater.1
        · rw [Context.executed_after]
          exact List.mem_append_left _ (List.mem_append_right _ (List.mem_singleton_self _))

/-- An edge is judged by whether it may be followed, and then by whether its guard holds at the
instant that the clock tells; nothing else is asked. -/
theorem follows_does {followed : Bool} :
    (follows node output e c : Proc (Call H) Bool).Does followed h ↔
      if e.isOpen node output = true then
        match e.guard with
        | none => followed = true ∧ h = 0
        | some guard => ∃ now, followed = guard.holds (c.scope now) ∧ h = {.called .clock now}
      else followed = false ∧ h = 0 := by
  rw [follows]
  split
  case isFalse => exact does_done.trans (and_congr_left' eq_comm)
  case isTrue =>
    rw [guardHolds]
    cases e.guard with
    | none => exact does_done.trans (and_congr_left' eq_comm)
    | some guard =>
        refine does_ask.trans (exists_congr fun now => ?_)
        constructor
        · rintro ⟨_, ⟨rfl, rfl⟩, rfl⟩
          exact ⟨rfl, add_zero _⟩
        · rintro ⟨rfl, rfl⟩
          exact ⟨0, ⟨rfl, rfl⟩, (add_zero _).symm⟩

/-- A trail changes nothing that can be seen but the outputs of its nodes. -/
theorem scope_after_agrees (c : Context) (t : Trail) {timed : Prop} {now now' : Time.Instant}
    (hnow : timed → now = now') :
    ((c.after t).scope now).Agree (· ∉ t.ids) timed (c.scope now') := by
  refine ⟨?_, ?_, fun id hid => Context.output?_after_of_notMem hid, hnow⟩
  · rw [Context.after_eq, Context.scope, Context.scope]
  · rw [Context.after_eq, Context.scope, Context.scope]

/-! ### The law of guards -/

/-- The guard of an edge decides whether it is followed from a node. -/
def Asks (node : Node) (output : Json) (e : Edge) (guard : Condition) : Prop :=
  e.isOpen node output = true ∧ e.guard = some guard

/-- Whether an edge may be followed from a node, and its guard holds in a scope. -/
def allows (node : Node) (output : Json) (scope : Scope) (e : Edge) : Bool :=
  e.isOpen node output && e.guard.all (Condition.holds scope)

/-- What a verdict says, given behind the trail that the earlier siblings have left: no edge is
followed that may not be, and one without a guard is if it may.  A guard decides by whether it holds
behind the trail, and that is whether it holds in the context behind the node if it names the
outputs that it looks at and none of them is of a node of the trail. -/
structure Stands (visit : Visitor H) (node : Node) (output : Json) (behind : Context) (t : Trail)
    (v : Verdict H) : Prop extends Given visit (follows node output) (behind.after t) v where
  closed : v.edge.isOpen node output = false → v.followed = false ∧ v.asked = 0
  forced : v.edge.isOpen node output = true → v.edge.guard = none →
    v.followed = true ∧ v.asked = 0
  guarded : ∀ guard, Asks node output v.edge guard → ∃ now, v.asked = {.called .clock now} ∧
    v.followed = guard.holds ((behind.after t).scope now) ∧
    (guard.Sees (· ∉ t.ids) True → v.followed = guard.holds (behind.scope now))

theorem Judged.stands (h : Judged visit (follows node output) c (before ++ v :: after)) :
    Stands visit node output c (trails before) v := by
  have hgiven := h.given
  have hjudged := follows_does.mp hgiven.judged
  refine ⟨hgiven, fun hclosed => ?_, fun hopen hnone => ?_, fun guard hguard => ?_⟩
  · rwa [if_neg (by rw [hclosed]; exact Bool.false_ne_true)] at hjudged
  · rwa [if_pos hopen, hnone] at hjudged
  · rw [if_pos hguard.1, hguard.2] at hjudged
    obtain ⟨now, hholds, hasked⟩ := hjudged
    refine ⟨now, hasked, hholds, fun hsees => hholds.trans ?_⟩
    exact hsees.holds_eq (scope_after_agrees c _ fun _ => rfl)

/-- Where a guard looks at no outputs but those that were there, and not at the time, its verdict is
that of the context behind the node. -/
theorem Judged.followed_eq (h : Judged visit (follows node output) c (before ++ v :: after))
    (hsees : ∀ guard, Asks node output v.edge guard → guard.Sees (· ∈ c.executed) False)
    (now : Time.Instant) : v.followed = allows node output (c.scope now) v.edge := by
  have hstands := h.stands
  rw [allows]
  cases hopen : v.edge.isOpen node output with
  | false => exact (hstands.closed hopen).1
  | true =>
      cases hguard : v.edge.guard with
      | none => exact (hstands.forced hopen hguard).1
      | some guard =>
          obtain ⟨instant, -, hholds, -⟩ := hstands.guarded guard ⟨hopen, hguard⟩
          -- No node runs twice, so the trail leaves the outputs alone that were there.
          have hfresh : ∀ id, id ∈ c.executed → id ∉ (trails before).ids := by
            intro id hid hran
            refine h.fresh id ?_ hid
            rw [trails, List.flatMap_append, Trail.ids_append]
            exact List.mem_append_left _ hran
          have hagree : ((c.after (trails before)).scope instant).Agree (· ∈ c.executed) False
              (c.scope now) := (scope_after_agrees c _ False.elim).weaken hfresh id
          rw [hholds, (hsees guard ⟨hopen, hguard⟩).holds_eq hagree]
          rfl

theorem taken_eq_filter {p : Edge → Bool} (h : ∀ v ∈ vs, v.followed = p v.edge) :
    taken vs = (vs.map Verdict.edge).filter p := by
  rw [taken, List.filter_map]
  exact congrArg _ (List.filter_congr h)

/-- When a node has run and what follows it has not failed, then all that was done is what was done
for the node itself, and the verdicts on the edges that leave it, in their order.  Each verdict
stands in the context that the earlier siblings have left: that is the context behind the node, and
then all that ran behind these siblings.  If the guards look at no outputs but those that were there
when the node had run, and not at the time, then the edges that are followed are those whose guards
hold in the context behind the node, in whatever order the edges are; otherwise the order may
decide. -/
theorem guards_judged_in_turn (w : Walk H) {room : Nat} {nodeId : String}
    (hnew : c.hasExecuted nodeId = false)
    (hdoes : (w.visit room nodeId c).Does ⟨results, .ok c'⟩ h) :
    ∃ less node output own ran vs, room = less + 1 ∧ w.workflow.node? nodeId = some node ∧
      w.Outputs (w.visit less) node c output own ran ∧
      vs.map Verdict.edge = w.workflow.outgoing nodeId ∧
      c' = (c.withOutput nodeId output).after (trails vs) ∧
      results = own ++ vs.flatMap Verdict.results ∧ h = ran + history vs ∧
      (∀ before v after, vs = before ++ v :: after →
        Stands (w.visit less) node output (c.withOutput nodeId output) (trails before) v) ∧
      ((∀ e ∈ w.workflow.outgoing nodeId, ∀ guard, Asks node output e guard →
          guard.Sees (· ∈ (c.withOutput nodeId output).executed) False) →
        ∀ now, taken vs = (w.workflow.outgoing nodeId).filter
          (allows node output ((c.withOutput nodeId output).scope now))) := by
  rcases visit_cases hdoes with ⟨hold, -⟩ |
    ⟨less, node, output, own, ran, left, hroom, hnode, -, hran, hleft, rfl⟩
  · rw [hnew] at hold
    cases hold
  · obtain ⟨vs, hedges, hjudged, hafter, hresults, rfl⟩ :=
      judged_of_follow (visit_leavesTrails w less) hleft
    refine ⟨less, node, output, own, ran, vs, hroom, hnode, hran, hedges, hafter, hresults, rfl,
      fun before v after hsplit => ?_, fun hsees now => ?_⟩
    · exact Judged.stands (hsplit ▸ hjudged)
    · rw [← hedges]
      refine taken_eq_filter fun v hv => ?_
      obtain ⟨before, after, rfl⟩ := List.append_of_mem hv
      refine hjudged.followed_eq (hsees v.edge ?_) now
      rw [← hedges]
      exact List.mem_map_of_mem hv

/-! ### Siblings -/

theorem exists_pair {e₁ e₂ : Edge} (h : vs.map Verdict.edge = [e₁, e₂]) :
    ∃ v₁ v₂, vs = [v₁, v₂] ∧ v₁.edge = e₁ ∧ v₂.edge = e₂ := by
  obtain ⟨v₁, rest, rfl, hfirst, hrest⟩ := List.map_eq_cons_iff.mp h
  obtain ⟨v₂, rfl, hsecond⟩ := List.map_eq_singleton_iff.mp hrest
  exact ⟨v₁, v₂, rfl, hfirst, hsecond⟩

/-- A workflow in which a trigger leads to two nodes. -/
def siblings (edges : List Edge) : Walk Empty :=
  let node (id : String) (type : NodeType) : Node := ⟨id, type, none, .null⟩
  let d : Definition := .create ⟨0⟩ "siblings" .manual
    [node "start" .trigger, node "a" .output, node "b" .output] edges
  ⟨d, (Engine.create [] [] .standard).adapter, 2⟩

/-- An edge that is followed in any case. -/
def plainEdge : Edge := ⟨"start", "a", none, none⟩

/-- The guard asks whether the other sibling has an output. -/
def siblingRan : Condition := .simple ⟨"nodes.a", .isPresent, .bool true⟩

def guardedEdge : Edge := ⟨"start", "b", none, some siblingRan⟩

def siblingsStart : Context := .start ⟨1⟩ ⟨0⟩ ⟨0, 0⟩ .null []

theorem Stands.followed_of_plain {t : Trail}
    (hstands : Stands visit ⟨"start", .trigger, none, .null⟩ output c t v)
    (hedge : v.edge = plainEdge) : v.followed = true :=
  (hstands.forced (by rw [hedge]; rfl) (by rw [hedge]; rfl)).1

theorem Stands.followed_of_guarded {t : Trail}
    (hstands : Stands visit ⟨"start", .trigger, none, .null⟩ output c t v)
    (hedge : v.edge = guardedEdge) :
    ∃ now, v.followed = siblingRan.holds ((c.after t).scope now) := by
  obtain ⟨now, -, hholds, -⟩ :=
    hstands.guarded siblingRan ⟨by rw [hedge]; rfl, by rw [hedge]; rfl⟩
  exact ⟨now, hholds⟩

/-- The guard does not hold behind the trigger.  Its edge is followed, and its target runs, if it
stands behind the edge to the other sibling, and not if it stands before it. -/
theorem order_of_siblings_decides :
    (∀ output now, siblingRan.holds ((siblingsStart.withOutput "start" output).scope now) = false) ∧
    (∃ results c' h output, ∃ vs : List (Verdict Empty),
      ((siblings [plainEdge, guardedEdge]).visit 3 "start" siblingsStart).Does
        ⟨results, .ok c'⟩ h ∧
      c' = (siblingsStart.withOutput "start" output).after (trails vs) ∧
      taken vs = [plainEdge, guardedEdge] ∧ c'.executed = ["start", "a", "b"]) ∧
    ∃ results c' h output, ∃ vs : List (Verdict Empty),
      ((siblings [guardedEdge, plainEdge]).visit 3 "start" siblingsStart).Does
        ⟨results, .ok c'⟩ h ∧
      c' = (siblingsStart.withOutput "start" output).after (trails vs) ∧
      taken vs = [plainEdge] ∧ c'.executed = ["start", "a"] := by
  let now : Time.Instant := ⟨0, 0⟩
  let empty : Json := .obj []
  let result (id : String) (type : NodeType) (output : Json) : NodeResult :=
    ⟨id, type, .ok output, now, elapsedMillis now now⟩
  let met : Context := (siblingsStart.withOutput "start" .null).withOutput "a" empty
  have hnever : ∀ output now,
      siblingRan.holds ((siblingsStart.withOutput "start" output).scope now) = false :=
    fun _ _ => rfl
  have hlast : ((siblings [plainEdge, guardedEdge]).visit 3 "start" siblingsStart).Yields
      ⟨[result "start" .trigger .null, result "a" .output empty, result "b" .output empty],
        .ok (met.withOutput "b" empty)⟩ := by
    refine Exists.intro now (Exists.intro false (Exists.intro now ?_))
    refine Exists.intro now (Exists.intro false (Exists.intro now ?_))
    -- The guard is judged when the other sibling has run.
    refine Exists.intro now ?_
    refine Exists.intro now (Exists.intro false (Exists.intro now ?_))
    exact rfl
  have hfirst : ((siblings [guardedEdge, plainEdge]).visit 3 "start" siblingsStart).Yields
      ⟨[result "start" .trigger .null, result "a" .output empty], .ok met⟩ := by
    refine Exists.intro now (Exists.intro false (Exists.intro now ?_))
    -- The guard is judged when only the trigger has run.
    refine Exists.intro now ?_
    refine Exists.intro now (Exists.intro false (Exists.intro now ?_))
    exact rfl
  obtain ⟨last, hlastDone⟩ := hlast.exists_does
  obtain ⟨first, hfirstDone⟩ := hfirst.exists_does
  refine ⟨hnever, ?_, ?_⟩
  · obtain ⟨_, node, output, _, _, vs, -, hnode, -, hedges, hafter, -, -, hstands, -⟩ :=
      guards_judged_in_turn _ rfl hlastDone
    obtain rfl : ⟨"start", .trigger, none, .null⟩ = node := Option.some.inj hnode
    obtain ⟨v₁, v₂, rfl, hplain, hguarded⟩ := exists_pair hedges
    have hfollowed₁ := (hstands [] v₁ [v₂] rfl).followed_of_plain hplain
    have hjudged := hstands [v₁] v₂ [] rfl
    obtain ⟨now, hholds⟩ := hjudged.followed_of_guarded hguarded
    have hfollowed₂ : v₂.followed = true := by
      cases hpassed : v₂.followed with
      | true => rfl
      | false =>
          -- Then the guard was judged in the last context, and there it holds.
          have htrails : trails [v₁, v₂] = trails [v₁] := by
            simp [trails, (hjudged.spared hpassed).1]
          rw [hpassed, ← htrails, ← hafter] at hholds
          cases hholds
    refine ⟨_, _, last, output, [v₁, v₂], hlastDone, hafter, ?_, rfl⟩
    simp [taken, hfollowed₁, hfollowed₂, hplain, hguarded]
  · obtain ⟨_, node, output, _, _, vs, -, hnode, -, hedges, hafter, -, -, hstands, -⟩ :=
      guards_judged_in_turn _ rfl hfirstDone
    obtain rfl : ⟨"start", .trigger, none, .null⟩ = node := Option.some.inj hnode
    obtain ⟨v₁, v₂, rfl, hguarded, hplain⟩ := exists_pair hedges
    obtain ⟨now, hholds⟩ := (hstands [] v₁ [v₂] rfl).followed_of_guarded hguarded
    have hpassed₁ : v₁.followed = false := hholds.trans (hnever output now)
    have hfollowed₂ := (hstands [v₁] v₂ [] rfl).followed_of_plain hplain
    refine ⟨_, _, first, output, [v₁, v₂], hfirstDone, hafter, ?_, rfl⟩
    simp [taken, hpassed₁, hfollowed₂, hplain]

end Walk

end Workflow
