import Workflow.Proofs.Definition.Order
import Workflow.Proofs.Process.Progress
import Workflow.Proofs.Run.Course
import Workflow.Run.Lifecycle

/-!
# How deep a walk goes

A visit has room for the visits inside it.  In a workflow that has an order each edge leads further
on in it, so that a path is never longer than there are nodes, and each edge leads to a node: with
that much room, what is done when there is none, or at a node that is not there, is no part of the
visit.  So the room is no bound, and a visit is the recursion along the edges that it looks like.
-/

namespace Workflow

universe u

variable {H : Type}

namespace Definition

variable {d : Definition} {order : List String} {id : String}

theorem exists_node? (h : id ∈ d.ids) : ∃ node, d.node? id = some node := by
  obtain ⟨node, hmem, hid⟩ := List.mem_map.mp h
  have hfound : (d.nodes.find? fun n => n.id = id).isSome = true := by
    rw [List.find?_isSome]
    exact ⟨node, hmem, by simpa using hid⟩
  exact Option.isSome_iff_exists.mp hfound

theorem mem_outgoing {e : Edge} : e ∈ d.outgoing id ↔ e ∈ d.edges ∧ e.source = id := by
  simp [outgoing]

/-- In a workflow with an order an edge leads to a node further on. -/
theorem further_of_outgoing (horder : d.order = .ok order) {e : Edge} (he : e ∈ d.outgoing id) :
    e.target ∈ d.ids ∧ order.idxOf id < order.idxOf e.target := by
  obtain ⟨hedge, rfl⟩ := mem_outgoing.mp he
  obtain ⟨-, hjoined, -, hperm, hforward⟩ := of_order_eq_ok horder
  have htarget : e.target ∈ d.ids := (hjoined e hedge).2
  exact ⟨htarget, hforward.idxOf_lt (hperm.mem_iff.mpr htarget) ⟨e, hedge, rfl, rfl⟩⟩

theorem idxOf_lt_length (horder : d.order = .ok order) (hid : id ∈ d.ids) :
    order.idxOf id < order.length := by
  obtain ⟨-, -, -, hperm, -⟩ := of_order_eq_ok horder
  exact List.idxOf_lt_length_of_mem (hperm.mem_iff.mpr hid)

theorem length_of_order (horder : d.order = .ok order) : order.length = d.nodes.length := by
  obtain ⟨-, -, -, hperm, -⟩ := of_order_eq_ok horder
  rw [hperm.length_eq, ids, List.length_map]

end Definition

namespace Walk

variable {w : Walk H} {node : Node} {c : Context} {order : List String} {nodeId : String}

/-! ### What a visit depends on -/

section

variable {visit visit' : Visitor H} {edges : List Edge}

theorem follow_congr (h : ∀ e ∈ edges, ∀ c, visit e.target c = visit' e.target c)
    (choose : Edge → Context → Proc (Call H) Bool) (c : Context) (results : List NodeResult) :
    follow visit choose edges c results = follow visit' choose edges c results := by
  induction edges generalizing c results with
  | nil => rfl
  | cons e rest ih =>
      have hrest := ih fun e he => h e (List.mem_cons_of_mem _ he)
      simp only [follow, h e List.mem_cons_self, hrest]

theorem iterate_congr (h : ∀ e ∈ edges, ∀ c, visit e.target c = visit' e.target c)
    (nodeId : String) (config : LoopConfig) (c : Context) (index : Nat) (items : List Json)
    (blocks : List (List NodeResult)) (outputs : List Json) :
    iterate visit nodeId config edges c index items blocks outputs =
      iterate visit' nodeId config edges c index items blocks outputs := by
  induction items generalizing index blocks outputs with
  | nil => rfl
  | cons item rest ih => simp only [iterate, follow_congr h, ih]

theorem runParallel_congr
    (h : ∀ e ∈ w.workflow.outgoing node.id, ∀ c, visit e.target c = visit' e.target c) :
    w.runParallel visit node c = w.runParallel visit' node c := by
  -- The branches are among the edges for each of the answers on which guards may depend.
  have hchosen : ∀ {edges : List Edge} {γ : Type} {f g : List Edge → Proc (Call H) γ},
      (∀ branches, branches ⊆ edges → f branches = g branches) →
        (chosen c edges).bind f = (chosen c edges).bind g := by
    intro edges γ f g hfg
    induction edges generalizing f g with
    | nil => exact hfg [] (List.Subset.refl _)
    | cons e rest ih =>
        simp only [chosen, Proc.bind_assoc]
        congr 1
        funext holds
        refine ih fun branches hbranches => ?_
        simp only [Proc.done_bind]
        apply hfg
        cases holds with
        | true => exact List.cons_subset_cons e hbranches
        | false => exact List.subset_cons_of_subset e hbranches
  refine hchosen fun branches hbranches => ?_
  have hvisits : (branches.map fun e => visit e.target c) =
      branches.map fun e => visit' e.target c := by
    apply List.map_congr_left
    intro e he
    exact h e (List.mem_of_mem_filter (hbranches he)) c
  rw [hvisits]

theorem execute_congr
    (h : ∀ e ∈ w.workflow.outgoing node.id, ∀ c, visit e.target c = visit' e.target c)
    (now : Time.Instant) : w.execute visit node c now = w.execute visit' node c now := by
  cases htype : node.type with
  | loop =>
      have hbody : ∀ e ∈ (w.workflow.outgoing node.id).filter fun e => e.handle = some bodyHandle,
          ∀ c, visit e.target c = visit' e.target c := fun e he => h e (List.mem_of_mem_filter he)
      simp only [execute, htype, runLoop, iterate_congr hbody]
  | parallel => simp only [execute, htype, runParallel_congr h]
  | _ => simp only [execute, htype]

theorem arrive_congr
    (h : ∀ e ∈ w.workflow.outgoing node.id, ∀ c, visit e.target c = visit' e.target c) :
    w.arrive visit node c = w.arrive visit' node c := by
  have hproceed : w.proceed visit node c = w.proceed visit' node c := by
    funext startedAt finishedAt executed
    obtain ⟨results, e | output⟩ := executed
    · rfl
    · simp only [proceed, follow_congr h]
  simp only [arrive, execute_congr h, hproceed]

end

/-! ### Room -/

/-- A visit for which it is left open what is done when there is no room, and at a node that is not
there. -/
def visitElse (w : Walk H) (deep missing : Visitor H) : Nat → Visitor H
  | 0, nodeId, c => deep nodeId c
  | room + 1, nodeId, c =>
    match w.workflow.node? nodeId with
    | none => missing nodeId c
    | some node => w.arrive (w.visitElse deep missing room) node c

theorem visit_eq_visitElse (w : Walk H) (room : Nat) :
    w.visit room = w.visitElse
      (fun nodeId c => .done ⟨[], .error (failPath nodeId (.graph .cycle) c)⟩)
      (fun nodeId c => .done ⟨[], .error (failPath nodeId (.nodeNotFound nodeId) c)⟩) room := by
  induction room with
  | zero => rfl
  | succ room ih =>
      funext nodeId c
      rw [visit_succ, ih]
      rfl

/-- Enough room is as good as more. -/
theorem visitElse_congr (horder : w.workflow.order = .ok order) {room room' : Nat}
    (hid : nodeId ∈ w.workflow.ids) (hroom : order.length ≤ room + order.idxOf nodeId)
    (hroom' : order.length ≤ room' + order.idxOf nodeId) (deep missing deep' missing' : Visitor H)
    (c : Context) :
    w.visitElse deep missing room nodeId c = w.visitElse deep' missing' room' nodeId c := by
  have hlt := Definition.idxOf_lt_length horder hid
  induction room generalizing room' nodeId c with
  | zero => omega
  | succ room ih =>
      obtain ⟨room', rfl⟩ : ∃ n, room' = n + 1 := Nat.exists_eq_succ_of_ne_zero (by omega)
      obtain ⟨node, hnode⟩ := Definition.exists_node? hid
      obtain rfl := Definition.id_of_node? hnode
      simp only [visitElse, hnode]
      apply arrive_congr
      intro e he c'
      obtain ⟨htarget, hfurther⟩ := Definition.further_of_outgoing horder he
      have htargetLt := Definition.idxOf_lt_length horder htarget
      exact ih htarget (by omega) (by omega) c' htargetLt

theorem visitElse_eq_visit (horder : w.workflow.order = .ok order)
    (hid : nodeId ∈ w.workflow.ids) {room room' : Nat} (hroom : w.workflow.nodes.length ≤ room)
    (hroom' : w.workflow.nodes.length ≤ room') (deep missing : Visitor H) (c : Context) :
    w.visitElse deep missing room nodeId c = w.visit room' nodeId c := by
  have hlength := Definition.length_of_order horder
  rw [visit_eq_visitElse]
  exact visitElse_congr horder hid (by omega) (by omega) _ _ _ _ c

/-- A visit that breaks off where the workflow ends. -/
def visitInside (w : Walk H) : Nat → Visitor H :=
  w.visitElse (fun _ _ => .panic "no room") fun _ _ => .panic "no node"

theorem visitInside_yields {room : Nat} {v : Visited}
    (h : (w.visitInside room nodeId c).Yields v) :
    ∃ inner node, room = inner + 1 ∧ w.workflow.node? nodeId = some node ∧
      Arrived w (w.visitInside inner) node c v := by
  cases room with
  | zero => exact h.elim
  | succ inner =>
      rw [visitInside, visitElse] at h
      cases hnode : w.workflow.node? nodeId with
      | none =>
          simp only [hnode] at h
          exact h.elim
      | some node =>
          simp only [hnode] at h
          exact ⟨inner, node, rfl, rfl, arrive_yields h⟩

/-- A visit of a node of a workflow with an order never leaves the workflow. -/
theorem yields_visitInside (horder : w.workflow.order = .ok order)
    (hid : nodeId ∈ w.workflow.ids) {room : Nat} (hroom : w.workflow.nodes.length ≤ room)
    {v : Visited} (h : (w.visit room nodeId c).Yields v) :
    (w.visitInside room nodeId c).Yields v := by
  rwa [visitInside, visitElse_eq_visit horder hid hroom hroom]

/-! ### Failures -/

/-- Inside a workflow nothing fails but nodes, each for a reason of its own. -/
theorem root_isOwn {room : Nat} {results : List NodeResult} {failure : PathFailure}
    (h : (w.visitInside room nodeId c).Yields ⟨results, .error failure⟩) :
    failure.error.root.IsOwn := by
  induction room generalizing nodeId c results failure with
  | zero => exact h.elim
  | succ room ih =>
      obtain ⟨inner, node, hinner, -, harrived⟩ := visitInside_yields h
      obtain rfl : room = inner := Nat.succ.inj hinner
      have hfollowed : ∀ {choose edges start results failure},
          Followed (w.visitInside room) choose edges start ⟨results, .error failure⟩ →
            failure.error.root.IsOwn := by
        intro choose edges start results failure hfailed
        obtain ⟨_, e, _, c', _, last, -, -, -, hvisited, -⟩ := hfailed.split_error
        exact ih hvisited
      rcases harrived.error_cases with ⟨_, e, _, _, -, hran, -, rfl⟩ |
        ⟨_, _, _, _, _, -, -, hleft, -⟩
      · rcases hran.error_cases with ⟨-, hown⟩ | ⟨_, _, _, _, _, failure, -, -, -, -, hblock, rfl⟩ |
          ⟨_, _, failure, -, hvisited, rfl⟩
        · have hroot : e.root = e := hown.root
          exact hroot.symm ▸ hown
        · have hroot := hfollowed hblock
          exact hroot
        · have hroot := ih hvisited
          exact hroot
      · exact hfollowed hleft

/-- A visit comes to an end, whatever is in the context, whatever handlers do and however many items
loops may have.  With room for all nodes it is the same whatever would be done without room or at a
node that is not there: so the visits inside it are no deeper than there are nodes, and none of them
looks for a node that is not there, which could only fail; nodes do fail, for reasons of their own.
Of infinitely many steps all but finitely many only wait, and if calls are answered the visit can be
brought to its end at any time. -/
theorem visit_terminates (w : Walk H) (horder : w.workflow.order = .ok order)
    (hid : nodeId ∈ w.workflow.ids) (c : Context) {room : Nat}
    (hroom : w.workflow.nodes.length ≤ room) :
    (∀ deep missing : Visitor H,
      w.visitElse deep missing w.workflow.nodes.length nodeId c = w.visit room nodeId c) ∧
    (∀ results failure, (w.visit room nodeId c).Yields ⟨results, .error failure⟩ →
      failure.error.root.IsOwn) ∧
    ∀ (S : Type u) (A : Role → (β : Type) → Call H β → S → β → S → Prop),
      (∀ run : Nat → Proc (Call H) Visited, run 0 = w.visit room nodeId c →
        (∀ i, ∃ r s left s', Proc.Step A r (run i) s left (run (i + 1)) s') →
          ∃ last, ∀ i, last ≤ i → (run (i + 1)).timeless = (run i).timeless) ∧
      ((∀ r (β : Type) (call : Call H β) s, ∃ reply s', A r β call s reply s') →
        ∀ r s left p s', Proc.Steps A r (w.visit room nodeId c) s left p s' →
          ∃ left' q s'', Proc.Steps A r p s' left' q s'' ∧ q.IsOver) := by
  refine ⟨fun deep missing => ?_, fun results failure h => ?_, fun S A => ⟨?_, ?_⟩⟩
  · exact visitElse_eq_visit horder hid le_rfl hroom deep missing c
  · exact root_isOwn (yields_visitInside horder hid hroom h)
  · intro run _ hrun
    exact Proc.waits_at_last run hrun
  · intro hanswered r s left p s' _
    exact Proc.can_end hanswered p r s'

/-- A loop with two branches in its body, as deep as it has nodes on a path. -/
theorem nested_visit_terminates :
    let node (id : String) (type : NodeType) : Node := ⟨id, type, none, .null⟩
    let edge (a b : String) (handle : Option String) : Edge := ⟨a, b, handle, none⟩
    let d : Definition := .create ⟨0⟩ "nested" .manual
      [node "start" .trigger, node "each" .loop, node "fan" .parallel, node "left" .output,
        node "right" .output]
      [edge "start" "each" none, edge "each" "fan" (some "body"), edge "fan" "left" none,
        edge "fan" "right" none]
    let w : Walk Empty := ⟨d, (Engine.create [] [] .standard).adapter, 3⟩
    d.order = .ok ["start", "each", "fan", "left", "right"] ∧ "start" ∈ d.ids ∧
    ∀ c, (∀ deep missing, w.visitElse deep missing 5 "start" c = w.visit 5 "start" c) ∧
      ∀ results failure, (w.visit 5 "start" c).Yields ⟨results, .error failure⟩ →
        failure.error.root.IsOwn := by
  intro node edge d w
  have horder : d.order = .ok ["start", "each", "fan", "left", "right"] := by rfl
  have hid : "start" ∈ d.ids := List.mem_cons_self
  refine ⟨horder, hid, fun c => ?_⟩
  obtain ⟨hdepth, hfailures, -⟩ := visit_terminates.{0} w horder hid c (le_refl 5)
  exact ⟨hdepth, hfailures⟩

end Walk

end Workflow
