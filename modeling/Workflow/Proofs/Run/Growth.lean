import Workflow.Proofs.Keyed
import Workflow.Proofs.Run.Live

/-!
# The growth of contexts

On a path a context only grows: more nodes have run and have outputs.  The variables of a loop, what
ran in its body and what ran on a branch are not seen outside, whether the path comes to its end or
fails; and a failure is noted once.
-/

namespace Workflow

variable {H : Type}

namespace Context

variable {c c' : Context} {new : List String} {t : Trail}

/-- The outputs of a context are those of the nodes that have run, each of them once. -/
structure Recorded (c : Context) : Prop where
  once : c.executed.Nodup
  keys : ∀ id, id ∈ Keyed.keys c.outputs ↔ id ∈ c.executed

/-- A context has grown by nodes that have run, and is the same but for these and for failures. -/
structure Grown (c : Context) (new : List String) (c' : Context) : Prop where
  executed : c'.executed = c.executed ++ new
  outputs : ∀ id output, c.output? id = some output → c'.output? id = some output
  executionId : c'.executionId = c.executionId
  workflowId : c'.workflowId = c.workflowId
  startedAt : c'.startedAt = c.startedAt
  trigger : c'.trigger = c.trigger
  bindings : c'.bindings = c.bindings

theorem Recorded.after (hc : c.Recorded) (hnodup : t.ids.Nodup)
    (hfresh : ∀ id ∈ t.ids, id ∉ c.executed) : (c.after t).Recorded where
  once := by
    rw [executed_after, List.nodup_append]
    refine ⟨hc.once, hnodup, fun a ha b hb hab => ?_⟩
    exact hfresh b hb (hab ▸ ha)
  keys id := by rw [mem_keys_after, executed_after, List.mem_append, hc.keys]

theorem grown_after (hc : c.Recorded) (hfresh : ∀ id ∈ t.ids, id ∉ c.executed) :
    c.Grown t.ids (c.after t) where
  executed := executed_after
  outputs id output houtput := by
    have hold : id ∈ c.executed := (hc.keys id).mp (Keyed.mem_keys_of_get? houtput)
    have hnew : id ∉ t.ids := fun hid => hfresh id hid hold
    rw [output?_after_of_notMem hnew, houtput]
  executionId := by rw [after_eq]
  workflowId := by rw [after_eq]
  startedAt := by rw [after_eq]
  trigger := by rw [after_eq]
  bindings := by rw [after_eq]

theorem errors_after : (c.after t).errors = c.errors := by rw [after_eq]

theorem Recorded.withError (hc : c.Recorded) (nodeId message : String) :
    (c.withError nodeId message).Recorded := ⟨hc.once, hc.keys⟩

theorem Grown.withError (h : c.Grown new c') (nodeId message : String) :
    c.Grown new (c'.withError nodeId message) :=
  ⟨h.executed, h.outputs, h.executionId, h.workflowId, h.startedAt, h.trigger, h.bindings⟩

end Context

namespace Walk

variable {room : Nat} {c : Context} {nodeId : String} {order : List String}

/-- A visit only lets its context grow, by nodes to which the path itself leads: nothing of a loop
or of a branch is left in it.  If the visit fails, one failure is noted on top. -/
theorem visit_grows (w : Walk H) (horder : w.workflow.order = .ok order)
    (hid : nodeId ∈ w.workflow.ids) (hroom : w.workflow.nodes.length ≤ room) (hc : c.Recorded)
    {v : Visited} (h : (w.visit room nodeId c).Yields v) :
    ∃ new,
      (∀ id ∈ new, id ≠ nodeId → ∃ source ∈ new, w.workflow.LeadsOn source id) ∧
      match v.ending with
      | .ok c' => c.Grown new c' ∧ c'.Recorded ∧ c'.errors = c.errors
      | .error failure => c.Grown new failure.context ∧ failure.context.Recorded ∧
          ∃ e, failure.context.errors = c.errors ++ [e] := by
  have hinside := yields_visitInside horder hid hroom h
  have hled : ∀ {t : Trail}, Walked w room (· = nodeId) c t → ∀ id ∈ t.ids, id ≠ nodeId →
      ∃ source ∈ t.ids, w.workflow.LeadsOn source id := by
    intro t ht id hmem hne
    obtain ⟨l, hl, rfl⟩ := Trail.mem_ids.mp hmem
    obtain ⟨before, after, rfl⟩ := List.append_of_mem hl
    obtain ⟨source, hsource, hleads⟩ := (led_of_walked ht rfl).resolve_left hne
    refine ⟨source, ?_, hleads⟩
    rw [Trail.ids_append]
    exact List.mem_append_left _ hsource
  obtain ⟨results, failure | c'⟩ := v
  · cases falls_visitInside w room _ _ _ _ hinside with
    | @behind t node _ e _ _ _ ht _ _ _ _ _ =>
        have hgrown := Context.grown_after hc ht.fresh
        have hrecorded := hc.after ht.nodup ht.fresh
        refine ⟨t.ids, hled ht, ?_⟩
        refine ⟨hgrown.withError _ _, hrecorded.withError _ _, ⟨node.id, e.message⟩, ?_⟩
        show (c.after t).errors ++ [⟨node.id, e.message⟩] = _
        rw [Context.errors_after]
  · obtain ⟨t, htour, rfl, -⟩ := tours_visitInside w room _ _ _ _ hinside
    have ht := htour.toWalked
    refine ⟨t.ids, hled ht, ?_⟩
    exact ⟨Context.grown_after hc ht.fresh, hc.after ht.nodup ht.fresh, Context.errors_after⟩

/-- After a loop its item is no variable, and its step has not run. -/
theorem looping_grows :
    let w := looping .output
    w.workflow.order = .ok ["start", "each", "step", "end"] ∧ "start" ∈ w.workflow.ids ∧
    loopingStart.Recorded ∧
    (∃ results, (w.visit 4 "start" loopingStart).Yields ⟨results, .ok loopingEnd⟩) ∧
    loopingStart.Grown ["start", "each", "end"] loopingEnd ∧ loopingEnd.Recorded ∧
    loopingEnd.errors = [] := by
  intro w
  have horder : w.workflow.order = .ok ["start", "each", "step", "end"] := by rfl
  have hid : "start" ∈ w.workflow.ids := List.mem_cons_self
  have hstart : loopingStart.Recorded := ⟨List.nodup_nil, fun _ => Iff.rfl⟩
  obtain ⟨new, -, hgrown, hend, herrors⟩ :=
    visit_grows w horder hid (le_refl 4) hstart looping_yields
  obtain rfl : ["start", "each", "end"] = new := hgrown.executed
  exact ⟨horder, hid, hstart, ⟨_, looping_yields⟩, hgrown, hend, herrors⟩

end Walk

end Workflow
