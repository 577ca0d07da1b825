import Workflow.Proofs.Process.Ensures
import Workflow.Proofs.Run.Note
import Workflow.Run.Lifecycle

/-!
# What a walk stands on

A walk makes calls of two kinds only: quiet ones, of which nothing is noted and which insert no
records but its own, and the question whether its run was told to stop.  A ground is what is known
while a walk goes on: a fact that everybody leaves as it is, and what follows when the question is
answered by yes.
-/

namespace Workflow

universe u

variable {H : Type} {S : Type u}

/-- The roles in which walks are made. -/
def Role.Walks (r : Role) : Prop := r = .owner ∨ r = .branch

theorem Role.Walks.part {r : Role} (hr : r.Walks) : r.part.Walks := by
  rcases hr with rfl | rfl <;> exact .inr rfl

/-- A record of a primitive among some nodes of a workflow, run for an execution. -/
structure NewAudit.IsOf (id wid : Uuid) (nodes : List Node) (record : NewAudit) : Prop where
  execution : record.executionId = some id
  workflow : record.workflowId = some wid
  node : ∃ node ∈ nodes, node.type = .primitive ∧ record.nodeId = some node.id

/-- A call of which nothing is noted, that does not ask whether a run was told to stop, and that
inserts no records but those of primitives of one execution. -/
structure Call.Quiet (id wid : Uuid) (nodes : List Node) {β : Type} (c : Call H β) : Prop where
  unnoted : ∀ reply, c.note? reply = none
  unpolled : c.polled? = none
  recorded : ∀ record, c.record? = some record → record.IsOf id wid nodes

/-- What a walk for an execution of a workflow with some nodes stands on: a fact, and what follows
when it was told to stop. -/
structure Ground (R : Rules (Call H) S) (registry : Registry H) (id wid : Uuid) (nodes : List Node)
    (F T : S → Prop) : Prop where
  stable : ∀ r, r.Walks → R.Stable r F
  told : ∀ r, r.Walks → R.Stable r T
  quiet : ∀ r, r.Walks → ∀ (β : Type) (c : Call H β), c.Quiet id wid nodes → ∀ s, F s →
    R.permits r β c s ∧ ∀ reply s', R.answers r β c s reply s' → F s' ∧ (T s → T s')
  poll : ∀ r, r.Walks → ∀ s, F s → R.permits r Bool (.here (.isStopped id)) s ∧
    ∀ reply s', R.answers r Bool (.here (.isStopped id)) s reply s' →
      F s' ∧ (T s → T s') ∧ (reply = true → T s')
  handler : ∀ name version handler, registry.find? name version = some handler →
    ∀ context input s, F s →
      Proc.Ensures R .guest (handler context input) (fun _ _ => True) (fun _ _ => True) s

/-- The fact of a ground, and that the run was told to stop if something is so. -/
def Known (F T : S → Prop) (P : Prop) (s : S) : Prop := F s ∧ (P → T s)

theorem Known.of {F T : S → Prop} {P : Prop} {s : S} (h : F s) (hP : ¬P) : Known F T P s :=
  ⟨h, fun hp => absurd hp hP⟩

theorem Known.imp {F T : S → Prop} {P P' : Prop} {s : S} (h : Known F T P s) (hP : P' → P) :
    Known F T P' s := ⟨h.1, fun hp => h.2 (hP hp)⟩

namespace Ground

open Proc

variable {R : Rules (Call H) S} {registry : Registry H} {id wid : Uuid} {nodes : List Node}
  {F T : S → Prop} {r : Role} {P : Prop} {α β : Type} {s s' : S} {Q : α → S → Prop}
  {X : String → S → Prop}

theorem meanwhile (G : Ground R registry id wid nodes F T) (hr : r.Walks) (h : R.Meanwhile r s s')
    (hs : Known F T P s) : Known F T P s' :=
  ⟨(G.stable r hr).meanwhile h hs.1, fun hp => (G.told r hr).meanwhile h (hs.2 hp)⟩

theorem done (G : Ground R registry id wid nodes F T) (hr : r.Walks) {a : α} (hs : Known F T P s)
    (hQ : ∀ s, Known F T P s → Q a s) : Ensures R r (.done a) Q X s :=
  fun _ ht => hQ _ (G.meanwhile hr ht hs)

theorem ask (G : Ground R registry id wid nodes F T) (hr : r.Walks) {c : Call H β}
    {next : β → Proc (Call H) α} (hc : c.Quiet id wid nodes) (hs : Known F T P s)
    (hnext : ∀ reply s', Known F T P s' → Ensures R r (next reply) Q X s') :
    Ensures R r (.ask c next) Q X s := by
  intro t ht
  have hknown := G.meanwhile hr ht hs
  obtain ⟨hperm, hanswer⟩ := G.quiet r hr β c hc t hknown.1
  refine ⟨hperm, fun reply t' hreply => hnext reply t' ?_⟩
  obtain ⟨hF, hT⟩ := hanswer reply t' hreply
  exact ⟨hF, fun hp => hT (hknown.2 hp)⟩

/-- Once it is told so, a walk knows that its run was told to stop. -/
theorem askStopped (G : Ground R registry id wid nodes F T) (hr : r.Walks)
    {next : Bool → Proc (Call H) α} (hs : Known F T P s)
    (hnext : ∀ stopped s', Known F T (stopped = true ∨ P) s' → Ensures R r (next stopped) Q X s') :
    Ensures R r (.ask (.here (.isStopped id)) next) Q X s := by
  intro t ht
  have hknown := G.meanwhile hr ht hs
  obtain ⟨hperm, hanswer⟩ := G.poll r hr t hknown.1
  refine ⟨hperm, fun reply t' hreply => hnext reply t' ?_⟩
  obtain ⟨hF, hkept, hT⟩ := hanswer reply t' hreply
  exact ⟨hF, fun h => h.elim hT fun hp => hkept (hknown.2 hp)⟩

end Ground

/-! ### Results -/

/-- A context of the run of an execution. -/
def Context.IsOf (id wid : Uuid) (c : Context) : Prop := c.executionId = id ∧ c.workflowId = wid

/-- The output of a node, or its failure, is that the run was told to stop. -/
def IsCancelled {β : Type} (outcome : Except RunError β) : Prop :=
  ∃ e, outcome = .error e ∧ e.isCancellation = true

/-- A walk ended because its run was told to stop. -/
def Visited.IsCancelled (v : Visited) : Prop :=
  ∃ failure, v.ending = .error failure ∧ failure.error.isCancellation = true

section

variable {id wid : Uuid} {c : Context} {β : Type}

theorem Context.IsOf.withItem (h : c.IsOf id wid) (item : String) (v : Json)
    (index : Option String) (i : Nat) : (c.withItem item v index i).IsOf id wid := by
  cases index <;> exact h

theorem not_isCancelled_ok (b : β) : ¬IsCancelled (.ok b : Except RunError β) := by
  rintro ⟨e, he, -⟩
  cases he

theorem isCancelled_error {e : RunError} :
    IsCancelled (.error e : Except RunError β) ↔ e.isCancellation = true :=
  ⟨fun ⟨_, he, h⟩ => by cases he; exact h, fun h => ⟨e, rfl, h⟩⟩

theorem isCancelled_map {γ : Type} {f : β → γ} {outcome : Except RunError β} :
    IsCancelled (outcome.map f) ↔ IsCancelled outcome := by
  cases outcome with
  | ok b => exact ⟨fun h => (not_isCancelled_ok _ h).elim, fun h => (not_isCancelled_ok _ h).elim⟩
  | error e => exact isCancelled_error.trans isCancelled_error.symm

theorem exists_isCancelled_of_gather {nodeId : String} {baseline : Nat}
    {branches : List (Edge × Visited)} (h : IsCancelled (Walk.gather nodeId baseline branches)) :
    ∃ b ∈ branches, b.2.IsCancelled := by
  induction branches with
  | nil => exact (not_isCancelled_ok _ h).elim
  | cons b rest ih =>
      obtain ⟨e, visited⟩ := b
      rw [Walk.gather] at h
      cases hending : visited.ending with
      | error failure =>
          simp only [hending] at h
          have hcause : failure.error.isCancellation = true := by
            simpa only [RunError.isCancellation] using isCancelled_error.mp h
          exact ⟨(e, visited), List.mem_cons_self, failure, hending, hcause⟩
      | ok last =>
          simp only [hending] at h
          obtain ⟨b, hb, hcancelled⟩ := ih (isCancelled_map.mp h)
          exact ⟨b, List.mem_cons_of_mem _ hb, hcancelled⟩

end

end Workflow
