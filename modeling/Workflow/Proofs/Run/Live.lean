import Workflow.Proofs.Run.Trail

/-!
# Live edges

A node that ran leads on to others by its live edges: those of its edges that it has not followed
itself, and that agree with its output if it is a condition.  A path goes nowhere but along live
edges, and along each of those that have no guard, unless it has been where they lead.
-/

namespace Workflow

variable {H : Type}

namespace Edge

variable {e : Edge} {node : Node} {output : Json}

/-- An edge leads on from its source: it is no branch, and it leads into no body. -/
def LeadsOn (e : Edge) (node : Node) : Prop :=
  node.type ≠ .parallel ∧ ¬(node.type = .loop ∧ e.handle = some bodyHandle)

/-- An edge of a condition with a handle is one for its output. -/
def Agrees (e : Edge) (node : Node) (output : Json) : Prop :=
  node.type = .condition →
    (e.handle = some "true" → output = .bool true) ∧
      (e.handle = some "false" → output = .bool false)

theorem beq_bool_iff {b : Bool} : (output == .bool b) = true ↔ output = .bool b := by
  have hbeq : (output == .bool b) = Json.beq output (.bool b) := rfl
  rw [hbeq]
  cases output <;> simp [Json.beq]

theorem isOpen_iff : e.isOpen node output = true ↔ e.LeadsOn node ∧ e.Agrees node output := by
  obtain ⟨source, target, handle, guard⟩ := e
  rw [isOpen, LeadsOn, Agrees]
  split <;> simp_all [beq_bool_iff, bodyHandle]

end Edge

namespace Definition

/-- A node leads on to another. -/
def LeadsOn (d : Definition) (a b : String) : Prop :=
  ∃ e ∈ d.edges, e.source = a ∧ e.target = b ∧ ∃ node, d.node? a = some node ∧ e.LeadsOn node

/-- An edge is live in a context in which its source has run. -/
def Live (d : Definition) (c : Context) (e : Edge) : Prop :=
  e ∈ d.edges ∧ ∃ node output, d.node? e.source = some node ∧
    c.output? e.source = some output ∧ e.LeadsOn node ∧ e.Agrees node output

theorem Live.leadsOn {d : Definition} {c : Context} {e : Edge} (h : d.Live c e) :
    d.LeadsOn e.source e.target := by
  obtain ⟨hedge, node, _, hnode, -, hon, -⟩ := h
  exact ⟨e, hedge, rfl, rfl, node, hnode, hon⟩

end Definition

namespace Walk

variable {w : Walk H} {room : Nat} {c : Context} {t : Trail} {l : Leg} {nodeId : String}
  {order : List String} {begins must : String → Prop}

/-- What opens a node is a live edge to it. -/
theorem live_of_opens (ht : Walked w room begins c t) (hl : l ∈ t) {id : String}
    (hopens : l.Opens w.workflow id) :
    ∃ e, w.workflow.Live (c.after t) e ∧ e.source = l.node.id ∧ e.target = id := by
  obtain ⟨e, he, hopen, htarget⟩ := hopens
  obtain ⟨hedge, hsource⟩ := Definition.mem_outgoing.mp he
  obtain ⟨hnode, -⟩ := ht.ran l hl
  have houtput := Context.output?_after (c := c) ht.nodup hl
  refine ⟨e, ⟨hedge, l.node, l.output, ?_, ?_, Edge.isOpen_iff.mp hopen⟩, hsource, htarget⟩
  · rw [hsource, hnode]
  · rw [hsource, houtput]

/-- What ran on a path is where the path began, or where something before it leads on. -/
theorem led_of_walked (ht : Walked w room begins c t) {before after : Trail}
    (hsplit : t = before ++ l :: after) :
    begins l.node.id ∨ ∃ id ∈ before.ids, w.workflow.LeadsOn id l.node.id := by
  rcases ht.opened before l after hsplit with hbegins | ⟨b, hb, hopens⟩
  · exact .inl hbegins
  · have hmem : b ∈ t := hsplit ▸ List.mem_append_left _ hb
    obtain ⟨e, hlive, hsource, htarget⟩ := live_of_opens ht hmem hopens
    refine .inr ⟨b.node.id, List.mem_map_of_mem hb, ?_⟩
    rw [← hsource, ← htarget]
    exact hlive.leadsOn

/-- A live edge without a guard forces its target. -/
theorem forces_of_live (ht : Walked w room begins c t) (hl : l ∈ t) {e : Edge}
    (hlive : w.workflow.Live (c.after t) e) (hsource : e.source = l.node.id)
    (hguard : e.guard = none) : l.Forces w.workflow e.target := by
  obtain ⟨hedge, node, output, hnode, houtput, hopen⟩ := hlive
  obtain ⟨hnode', -⟩ := ht.ran l hl
  have houtput' := Context.output?_after (c := c) ht.nodup hl
  obtain rfl : l.node = node := by simpa [hsource, hnode'] using hnode
  obtain rfl : l.output = output := by simpa [hsource, houtput'] using houtput
  exact ⟨e, Definition.mem_outgoing.mpr ⟨hedge, hsource⟩, Edge.isOpen_iff.mpr hopen, hguard, rfl⟩

/-- A visit that does not fail runs what the graph says.  Its node has run then.  Each other node
that it ran is the target of a live edge from one that it ran before; and where a live edge without
a guard leads from a node that it ran, there the nodes have run. -/
theorem visit_runs_live (w : Walk H) (horder : w.workflow.order = .ok order)
    (hid : nodeId ∈ w.workflow.ids) (hroom : w.workflow.nodes.length ≤ room)
    {results : List NodeResult} {c' : Context}
    (h : (w.visit room nodeId c).Yields ⟨results, .ok c'⟩) :
    nodeId ∈ c'.executed ∧
    ∃ new, c'.executed = c.executed ++ new ∧ new.Nodup ∧ (∀ id ∈ new, id ∉ c.executed) ∧
      (∀ before id after, new = before ++ id :: after → id ≠ nodeId →
        ∃ e, w.workflow.Live c' e ∧ e.source ∈ before ∧ e.target = id) ∧
      ∀ e, w.workflow.Live c' e → e.source ∈ new → e.guard = none → e.target ∈ c'.executed := by
  have hinside := yields_visitInside horder hid hroom h
  obtain ⟨t, htour, rfl, -⟩ := tours_visitInside w room _ _ _ _ hinside
  have hwalked := htour.toWalked
  rw [Context.executed_after]
  refine ⟨htour.reached nodeId rfl, t.ids, rfl, htour.nodup, htour.fresh, ?_, ?_⟩
  · intro before id after hsplit hne
    obtain ⟨first, rest, rfl, rfl, hrest⟩ := List.map_eq_append_iff.mp hsplit
    obtain ⟨l, last, rfl, rfl, -⟩ := List.map_eq_cons_iff.mp hrest
    rcases htour.opened first l last rfl with hbegins | ⟨b, hb, hopens⟩
    · exact absurd hbegins hne
    · have hmem : b ∈ first ++ l :: last := List.mem_append_left _ hb
      obtain ⟨e, hlive, hsource, htarget⟩ := live_of_opens hwalked hmem hopens
      exact ⟨e, hlive, hsource ▸ List.mem_map_of_mem hb, htarget⟩
  · intro e hlive hsource hguard
    obtain ⟨l, hl, hnode⟩ := Trail.mem_ids.mp hsource
    exact htour.forced l hl _ (forces_of_live hwalked hl hlive hnode.symm hguard)

/-- Behind the trigger are the loop and the node behind it, but not the step in its body. -/
theorem looping_runs_live :
    let w := looping .output
    w.workflow.order = .ok ["start", "each", "step", "end"] ∧ "start" ∈ w.workflow.ids ∧
    (∃ results, (w.visit 4 "start" loopingStart).Yields ⟨results, .ok loopingEnd⟩) ∧
    loopingEnd.executed = ["start", "each", "end"] ∧
    ∀ e, w.workflow.Live loopingEnd e → e.source ∈ loopingEnd.executed → e.guard = none →
      e.target ∈ loopingEnd.executed := by
  intro w
  have horder : w.workflow.order = .ok ["start", "each", "step", "end"] := by rfl
  have hid : "start" ∈ w.workflow.ids := List.mem_cons_self
  obtain ⟨-, new, hnew, -, -, -, hlive⟩ :=
    visit_runs_live w horder hid (le_refl 4) looping_yields
  obtain rfl : loopingEnd.executed = new := hnew
  exact ⟨horder, hid, ⟨_, looping_yields⟩, rfl, hlive⟩

end Walk

end Workflow
