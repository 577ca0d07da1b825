import Workflow.Proofs.Run.Clock
import Workflow.Proofs.Run.Steady

/-!
# Branches by themselves

The branches of a parallel node have nothing to do with each other: each begins in the context of
the node and comes to what it may come to by itself.  So a parallel node comes to the same, in
whatever order the steps of its branches are taken, as if they were gone through one after another.
-/

namespace Workflow

open Proc

variable {H : Type}

namespace Walk

variable {k : Setting} {w : Walk H} {visit : Visitor H} {c : Context} {node : Node}

/-- A parallel node whose branches are gone through one after another, each in the context of the
node. -/
def runInTurn (w : Walk H) (visit : Visitor H) (node : Node) (c : Context) :
    Proc (Call H) Executed :=
  (chosen c (w.branchEdges node)).bind fun branches =>
    (Proc.inTurn (branches.map fun e => visit e.target c)).bind fun visits =>
      .done (gathered node.id c.executed.length branches visits)

/-- The outcome of the branches of a parallel node: the last output of each of them in their order,
null if it executed no node, or the failure of the first one that failed. -/
inductive Joined (nodeId : String) (baseline : Nat) :
    List (Edge × Visited) → Except RunError (List Json) → Prop where
  | outputs {branches : List (Edge × Visited)} {outputs : List Json} :
      List.Forall₂ (fun b output => ∃ last, b.2.ending = .ok last ∧
        output = (last.lastOutputSince baseline).getD .null) branches outputs →
      Joined nodeId baseline branches (.ok outputs)
  | failed {before after : List (Edge × Visited)} {e : Edge} {visited : Visited}
      {failure : PathFailure} :
      (∀ b ∈ before, ∃ last, b.2.ending = .ok last) → visited.ending = .error failure →
        Joined nodeId baseline (before ++ (e, visited) :: after)
          (.error (.parallelBranch nodeId e.target failure.error))

theorem gather_joined (nodeId : String) (baseline : Nat) (branches : List (Edge × Visited)) :
    Joined nodeId baseline branches (gather nodeId baseline branches) := by
  induction branches with
  | nil => exact .outputs .nil
  | cons b rest ih =>
      obtain ⟨e, visited⟩ := b
      rw [gather]
      cases hending : visited.ending with
      | error failure =>
          have hnone : ∀ b ∈ ([] : List (Edge × Visited)), ∃ last, b.2.ending = .ok last := by simp
          exact .failed hnone hending
      | ok last =>
          simp only
          generalize gather nodeId baseline rest = outcome at ih
          cases ih with
          | outputs houtputs => exact .outputs (.cons ⟨last, hending, rfl⟩ houtputs)
          | @failed before after b visited' failure hbefore hfailed =>
              have hbefore' : ∀ b ∈ (e, visited) :: before, ∃ last, b.2.ending = .ok last := by
                rintro b (_ | ⟨_, hb⟩)
                · exact ⟨last, hending⟩
                · exact hbefore b hb
              exact .failed hbefore' hfailed

/-- What a parallel node may come to, when its branches run side by side or in turn. -/
theorem ends_parallel (hvisit : k.Leads visit) (hc : c.executionId = k.execution) (x : Executed)
    (p : Proc (Call H) Executed)
    (hp : p = w.runParallel visit node c ∨ p = w.runInTurn visit node c) :
    k.Ends p x ↔ ∃ branches visits,
      k.Ends (chosen c (w.branchEdges node) : Proc (Call H) _) branches ∧
      List.Forall₂ (fun e v => k.Ends (visit e.target c) v) branches visits ∧
      x = gathered node.id c.executed.length branches visits := by
  have hbranch (branches : List Edge) : ∀ e ∈ branches,
      k.Settles (visit e.target c) fun v => v.IsOf k.execution := fun e _ => hvisit e.target c hc
  rcases hp with rfl | rfl
  · change k.Ends ((chosen c (w.branchEdges node)).bind fun branches =>
      (Proc.sideBySide (branches.map fun e => visit e.target c)).bind fun visits =>
        .done (gathered node.id c.executed.length branches visits)) x ↔ _
    simp only [Setting.ends_bind (chosen_returns c _), Setting.ends_done,
      Setting.ends_bind (settles_sideBySide (hbranch _)), Setting.ends_sideBySide (hbranch _),
      exists_and_left, @eq_comm _ x]
  · simp only [runInTurn, Setting.ends_bind (chosen_returns c _), Setting.ends_done,
      Setting.ends_bind (settles_inTurn (hbranch _)), Setting.ends_inTurn (hbranch _),
      exists_and_left, @eq_comm _ x]

/-- A parallel node does not depend on how its branches are scheduled.  Each of the branches that
are followed begins in the context of the node and comes to something that it may come to by itself,
also if others fail; the results of all of them are put together in the order of their edges, and so
are their outputs, unless the first that failed gives its failure.  It may come to exactly what it
may come to when its branches are gone through one after another, and it does come to an end,
wherever it stands.  Unless the workflow asks for the time, all that it may come to is one and the
same but for the times that are noted. -/
theorem runParallel_independent (hk : k.Suits w) (room : Nat) (node : Node)
    (hc : c.executionId = k.execution) :
    (∀ x, k.Ends (w.runParallel (w.visit room) node c) x ↔
      k.Ends (w.runInTurn (w.visit room) node c) x) ∧
    (∀ x, k.Ends (w.runParallel (w.visit room) node c) x → ∃ branches visits outcome,
      k.Ends (chosen c (w.branchEdges node) : Proc (Call H) _) branches ∧
      List.Forall₂ (fun e v => k.Ends (w.visit room e.target c) v) branches visits ∧
      x = ⟨visits.flatMap Visited.results, outcome.map Json.arr⟩ ∧
      Joined node.id c.executed.length (branches.zip visits) outcome) ∧
    (∀ r s p t, k.Holds s → k.Goes r ((w.runParallel (w.visit room) node c).patient, s) (p, t) →
      ∃ x t', k.Goes r (p, t) (.done x, t')) ∧
    (k.Timeless w.workflow → ∃ x₀ : Executed,
      ∀ x, k.Ends (w.runParallel (w.visit room) node c) x → x.untimed = x₀) := by
  have hvisit := visit_leads hk room
  refine ⟨fun x => ?_, fun x hx => ?_, fun r s p t hs hgoes => ?_, fun ht => ?_⟩
  · rw [ends_parallel hvisit hc x _ (.inl rfl), ends_parallel hvisit hc x _ (.inr rfl)]
  · obtain ⟨branches, visits, hbranches, hvisits, rfl⟩ :=
      (ends_parallel hvisit hc x _ (.inl rfl)).mp hx
    exact ⟨branches, visits, _, hbranches, hvisits, rfl, gather_joined _ _ _⟩
  · have hreturns : k.Settles (w.runParallel (w.visit room) node c) fun _ => True :=
      runParallel_returns hvisit hc
    obtain ⟨x, t', hx, -⟩ := hreturns.can_end (Setting.answered hk.clock) hs hgoes
    exact ⟨x, t', hx⟩
  · obtain ⟨now, hnow⟩ := hk.clock
    have hchosen := chosen_settles ht hnow c fun _ => mem_edges_of_branchEdges node
    obtain ⟨branch, hbranch⟩ := branch_settles (visit_fixes hk ht room) hc
    exact ⟨_, fun x hx => (runParallel_settles hchosen fun e _ => hbranch e).ends hx⟩

/-- A parallel node with a primitive in each of two branches, whatever the clock shows. -/
theorem forked_independent :
    let step (id : String) : Node :=
      ⟨id, .primitive, none,
        .obj [("primitive", .str "echo"), ("config", .obj [("side", .str id)])]⟩
    let fork : Node := ⟨"fork", .parallel, none, .null⟩
    let edge (a b : String) : Edge := ⟨a, b, none, none⟩
    let d : Definition := .create ⟨0⟩ "forked" .manual
      [⟨"start", .trigger, none, .null⟩, fork, step "left", step "right"]
      [edge "start" "fork", edge "fork" "left", edge "fork" "right"]
    let w : Walk Empty := ⟨d, Setting.echoAdapter, 0⟩
    let k := Setting.echoing
    let c : Context := .start ⟨1⟩ ⟨0⟩ ⟨0, 0⟩ .null []
    let p := w.runParallel (w.visit 3) fork c
    k.Suits w ∧ c.executionId = k.execution ∧ (∃ x, k.Ends p x) ∧
      (∀ x, k.Ends p x ↔ k.Ends (w.runInTurn (w.visit 3) fork c) x) ∧
      ∃ x₀ : Executed, ∀ x, k.Ends p x → x.untimed = x₀ := by
  intro step fork edge d w k c p
  have hk : k.Suits w := Setting.echoing_suits d 0
  have hc : c.executionId = k.execution := rfl
  have ht : k.Timeless d := k.timeless_of_asksTime (by rfl)
  obtain ⟨hsame, -, hend, hunique⟩ := runParallel_independent hk 3 fork hc
  obtain ⟨s, hs⟩ := k.exists_holds
  obtain ⟨x, t, hx⟩ := hend .owner s _ s hs .refl
  exact ⟨hk, hc, ⟨x, .owner, s, t, hs, hx⟩, hsame, hunique ht⟩

end Walk

end Workflow
