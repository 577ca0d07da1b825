import Workflow.Proofs.Run.Depth
import Workflow.Proofs.Run.Setting

/-!
# Walks come to an end

In a setting that suits it no part of a walk breaks off or waits for what never comes: each comes to
some result, whatever the clock shows, and a path that does not fail goes on in a context of the
same execution.  This is shown for each part of a walk from the visits inside it, and for visits by
induction on their room. -/

namespace Workflow

open Proc

variable {H : Type}

/-- If a visit ends well it does so in a context of an execution. -/
def Visited.IsOf (v : Visited) (execution : Uuid) : Prop :=
  ∀ last, v.ending = .ok last → last.executionId = execution

theorem Visited.isOf_error {results : List NodeResult} {failure : PathFailure} {execution : Uuid} :
    (⟨results, .error failure⟩ : Visited).IsOf execution := by
  rintro last ⟨⟩

/-- In a setting, a visit comes to some result wherever it begins. -/
def Setting.Leads (k : Setting) (visit : Visitor H) : Prop :=
  ∀ nodeId c, c.executionId = k.execution →
    k.Settles (visit nodeId c) fun v => v.IsOf k.execution

theorem Context.executionId_withItem (c : Context) (itemVariable : String) (item : Json)
    (indexVariable : Option String) (index : Nat) :
    (c.withItem itemVariable item indexVariable index).executionId = c.executionId := by
  cases indexVariable <;> rfl

namespace Walk

variable {k : Setting} {w : Walk H} {visit : Visitor H} {c : Context} {node : Node}

/-- The edges into the body of a loop. -/
def bodyEdges (w : Walk H) (node : Node) : List Edge :=
  (w.workflow.outgoing node.id).filter fun e => e.handle = some bodyHandle

/-- The edges that leave a parallel node and lead somewhere. -/
def branchEdges (w : Walk H) (node : Node) : List Edge :=
  (w.workflow.outgoing node.id).filter fun e => (w.workflow.node? e.target).isSome

theorem guardHolds_returns (e : Edge) (c : Context) :
    k.Settles (guardHolds e c : Proc (Call H) Bool) fun _ => True := by
  rw [guardHolds]
  cases e.guard with
  | none => trivial
  | some guard => exact Setting.replies_clock fun _ _ => trivial

theorem follows_returns (output : Json) (e : Edge) (c : Context) :
    k.Settles (follows node output e c : Proc (Call H) Bool) fun _ => True := by
  rw [follows]
  split
  · exact guardHolds_returns e c
  · trivial

theorem follow_returns {choose : Edge → Context → Proc (Call H) Bool} {edges : List Edge}
    (hchoose : ∀ e c, k.Settles (choose e c) fun _ => True) (hvisit : k.Leads visit)
    (hc : c.executionId = k.execution) (results : List NodeResult) :
    k.Settles (follow visit choose edges c results) fun v => v.IsOf k.execution := by
  induction edges generalizing c results with
  | nil =>
      rintro last ⟨⟩
      exact hc
  | cons e rest ih =>
      refine (hchoose e c).andThen fun chosen _ => ?_
      cases chosen with
      | false => exact ih hc results
      | true =>
          refine (hvisit e.target c hc).andThen fun visited hof => ?_
          obtain ⟨inner, failure | c'⟩ := visited
          · exact Visited.isOf_error
          · exact ih (hof c' rfl) _

theorem body_returns (hvisit : k.Leads visit) (hc : c.executionId = k.execution)
    (edges : List Edge) (config : LoopConfig) (index : Nat) (item : Json) :
    k.Settles (follow visit guardHolds edges
      (c.withItem config.itemVariable item config.indexVariable index) [])
      fun v => v.IsOf k.execution :=
  follow_returns guardHolds_returns hvisit ((c.executionId_withItem _ _ _ _).trans hc) []

theorem iterate_returns (hvisit : k.Leads visit) (hc : c.executionId = k.execution)
    (nodeId : String) (config : LoopConfig) (edges : List Edge) (index : Nat) (items : List Json)
    (blocks : List (List NodeResult)) (outputs : List Json) :
    k.Settles (iterate visit nodeId config edges c index items blocks outputs) fun _ => True := by
  induction items generalizing index blocks outputs with
  | nil => trivial
  | cons item rest ih =>
      refine (body_returns hvisit hc edges config index item).andThen fun visited _ => ?_
      obtain ⟨inner, failure | last⟩ := visited
      · trivial
      · exact ih _ _ _

theorem runLoop_returns (hvisit : k.Leads visit) (hc : c.executionId = k.execution)
    (now : Time.Instant) : k.Settles (w.runLoop visit node c now) fun _ => True := by
  rw [runLoop]
  split
  · trivial
  · split
    · trivial
    · exact iterate_returns hvisit hc node.id _ _ 0 _ [] []

theorem chosen_returns (c : Context) (edges : List Edge) :
    k.Settles (chosen c edges : Proc (Call H) (List Edge)) fun _ => True := by
  induction edges with
  | nil => trivial
  | cons e rest ih =>
      exact (guardHolds_returns e c).andThen fun _ _ => ih.andThen fun _ _ => trivial

theorem runParallel_returns (hvisit : k.Leads visit) (hc : c.executionId = k.execution) :
    k.Settles (w.runParallel visit node c) fun _ => True := by
  refine (chosen_returns c (w.branchEdges node)).andThen fun branches _ => ?_
  exact (settles_sideBySide fun e _ => hvisit e.target c hc).andThen fun _ _ => trivial

theorem runPrimitive_returns (hk : k.Suits w) (hc : c.executionId = k.execution)
    (now : Time.Instant) : k.Settles (w.runPrimitive node c now) fun _ => True := by
  rw [runPrimitive]
  split
  · trivial
  · split
    · trivial
    · next reference _ =>
        exact (hk.adapter_returns reference _ (congrArg some hc)).andThen fun _ _ => trivial

theorem runDelay_returns (hc : c.executionId = k.execution) :
    k.Settles (runDelay node c : Proc (Call H) (Except RunError Json)) fun _ => True := by
  rw [runDelay]
  split
  · trivial
  · split
    · trivial
    · refine ⟨trivial, ?_⟩
      rintro stop ⟨⟩
      rw [hc]
      exact Setting.replies_isStopped.mono fun _ _ _ => trivial

theorem execute_returns (hk : k.Suits w) (hvisit : k.Leads visit)
    (hc : c.executionId = k.execution) (now : Time.Instant) :
    k.Settles (w.execute visit node c now) fun _ => True := by
  rw [execute]
  cases node.type with
  | trigger => trivial
  | primitive => exact (runPrimitive_returns hk hc now).andThen fun _ _ => trivial
  | condition => trivial
  | loop => exact runLoop_returns hvisit hc now
  | delay => exact (runDelay_returns hc).andThen fun _ _ => trivial
  | parallel => exact runParallel_returns hvisit hc
  | output => trivial

theorem proceed_returns (hvisit : k.Leads visit) (hc : c.executionId = k.execution)
    (startedAt finishedAt : Time.Instant) (executed : Executed) :
    k.Settles (w.proceed visit node c startedAt finishedAt executed)
      fun v => v.IsOf k.execution := by
  obtain ⟨inner, e | output⟩ := executed
  · exact Visited.isOf_error
  · exact follow_returns (c := c.withOutput node.id output) (follows_returns output) hvisit hc _

/-- In a setting that suits the walk a visit comes to some result, however much room it has. -/
theorem visit_leads (hk : k.Suits w) (room : Nat) : k.Leads (w.visit room) := by
  induction room with
  | zero => exact fun _ _ _ => Visited.isOf_error
  | succ room ih =>
      intro nodeId c hc
      rw [visit]
      split
      · exact Visited.isOf_error
      · split
        · rintro last ⟨⟩
          exact hc
        · refine Setting.replies_clock fun startedAt _ => ?_
          rw [hc]
          refine Setting.replies_isStopped.mono fun stopped hstopped => ?_
          subst hstopped
          refine (execute_returns hk ih hc startedAt).andThen fun executed _ => ?_
          exact Setting.replies_clock fun finishedAt _ =>
            proceed_returns ih hc startedAt finishedAt executed

end Walk

end Workflow
