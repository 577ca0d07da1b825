import Workflow.Proofs.Run.Growth

/-!
# Results and contexts

The results of a visit, what is known of its failure and its last context tell of the same things.
If it does not fail, all its results are successful, and those of the nodes on its path are among
them in their order.  If it fails, the last result is that of the node that failed; and where no
node is parallel, the results that are not successful are the last ones: that of the node that
failed first, and then those of the loops around it, from the innermost outwards.
-/

namespace Workflow

variable {H : Type}

/-- A loop has a node in its body, where a `body` edge leads or what it leads to leads on. -/
def Definition.InBody (d : Definition) (loop id : String) : Prop :=
  ∃ e ∈ d.outgoing loop, e.handle = some bodyHandle ∧
    Relation.ReflTransGen d.LeadsOn e.target id

/-- The results of a failure that loops have passed on: that of the node that failed, and then those
of the loops around it, each around the one before. -/
inductive Unwinds (d : Definition) : String → RunError → List NodeResult → Prop where
  | own {node : Node} {e : RunError} {startedAt : Time.Instant} {millis : Nat} :
      d.node? node.id = some node → e.IsOwn →
        Unwinds d node.id e [⟨node.id, node.type, .error e.message, startedAt, millis⟩]
  | loop {node : Node} {id : String} {i : Nat} {cause : RunError} {failed : List NodeResult}
      {startedAt : Time.Instant} {millis : Nat} :
      d.node? node.id = some node → node.type = .loop → d.InBody node.id id →
        Unwinds d id cause failed →
          Unwinds d node.id (.loopIteration node.id i cause)
            (failed ++ [⟨node.id, node.type,
              .error (RunError.loopIteration node.id i cause).message, startedAt, millis⟩])

theorem Unwinds.unsuccessful {d : Definition} {id : String} {e : RunError}
    {failed : List NodeResult} (h : Unwinds d id e failed) : ∀ r ∈ failed, r.success = false := by
  induction h with
  | own _ _ =>
      intro r hr
      rw [List.mem_singleton.mp hr]
      rfl
  | loop _ _ _ _ ih =>
      intro r hr
      rcases List.mem_append.mp hr with hr | hr
      · exact ih r hr
      · rw [List.mem_singleton.mp hr]
        rfl

/-! ### Trails -/

/-- A node with its output, as a result tells of it. -/
def NodeResult.entry (r : NodeResult) : String × Option Json := (r.nodeId, r.outcome.toOption)

namespace Trail

variable {c : Context} {t : Trail}

theorem entries_of_nodup (hnodup : t.ids.Nodup) :
    (t.ids.map fun id => (id, (c.after t).output? id)) =
      (t.map Leg.result).map NodeResult.entry := by
  rw [ids, List.map_map, List.map_map]
  apply List.map_congr_left
  intro l hl
  have houtput := Context.output?_after (c := c) hnodup hl
  simp only [Function.comp_apply, houtput]
  rfl

theorem sublist_results : (t.map Leg.result).Sublist t.results := by
  induction t with
  | nil => exact .slnil
  | cons l t ih =>
      rw [results_cons, List.map_cons]
      exact (ih.cons_cons l.result).trans (List.sublist_append_right _ _)

theorem results_eq (h : ∀ l ∈ t, l.inner = []) : t.results = t.map Leg.result := by
  induction t with
  | nil => rfl
  | cons l t ih =>
      have hrest := ih fun l hl => h l (List.mem_cons_of_mem _ hl)
      rw [results_cons, h l List.mem_cons_self, List.nil_append, List.map_cons, hrest]

end Trail

section

variable {w : Walk H} {room : Nat} {begins : String → Prop} {c c' : Context} {t : Trail} {l : Leg}
  {choose : Edge → Context → Proc (Call H) Bool} {edges : List Edge} {results : List NodeResult}
  {failure : PathFailure}

theorem Leg.inner_eq_nil (hl : l.Ran w room) (hloop : l.node.type ≠ .loop)
    (hparallel : l.node.type ≠ .parallel) : l.inner = [] := by
  obtain ⟨-, less, -, c, hran⟩ := hl
  rcases hran.ok_cases with hinner | ⟨_, _, htype, -⟩ | ⟨_, htype, -⟩
  · exact hinner
  · exact absurd htype hloop
  · exact absurd htype hparallel

theorem Walk.Followed.succeeded
    (hlegs : ∀ l : Leg, l.Ran w room → ∀ r ∈ l.results, r.success = true)
    (h : Walk.Followed (w.visitInside room) choose edges c ⟨results, .ok c'⟩) :
    ∀ r ∈ results, r.success = true := by
  obtain ⟨t, htour, -, rfl⟩ := h.tour (Walk.tours_visitInside w room)
  intro r hr
  obtain ⟨l, hl, hr⟩ := List.mem_flatMap.mp hr
  exact hlegs l (htour.ran l hl) r hr

/-- Where a node has an output, nothing has failed inside it. -/
theorem Leg.Ran.succeeded (hl : l.Ran w room) : ∀ r ∈ l.results, r.success = true := by
  induction room using Nat.strong_induction_on generalizing l with
  | _ room ih =>
      obtain ⟨-, less, hless, c, hran⟩ := hl
      have hlegs : ∀ l : Leg, l.Ran w less → ∀ r ∈ l.results, r.success = true :=
        fun l hl => ih less hless hl
      intro r hr
      rcases List.mem_append.mp hr with hr | hr
      · rcases hran.ok_cases with hinner | ⟨_, blocks, -, hinner, hblocks⟩ |
          ⟨visits, -, hinner, hvisits⟩
        · simp [hinner] at hr
        · rw [hinner] at hr
          obtain ⟨block, hblock, hr⟩ := List.mem_flatten.mp hr
          obtain ⟨start, last, hfollowed⟩ := hblocks block hblock
          exact hfollowed.succeeded hlegs r hr
        · rw [hinner] at hr
          obtain ⟨⟨results, ending⟩, hv, hr⟩ := List.mem_flatMap.mp hr
          obtain ⟨target, last, hyields, rfl⟩ := hvisits _ hv
          obtain ⟨t, htour, -, rfl⟩ := Walk.tours_visitInside w less _ _ _ _ hyields
          obtain ⟨l, hl, hr⟩ := List.mem_flatMap.mp hr
          exact hlegs l (htour.ran l hl) r hr
      · rw [List.mem_singleton.mp hr]
        rfl

theorem Walked.succeeded (ht : Walked w room begins c t) : ∀ r ∈ t.results, r.success = true := by
  intro r hr
  obtain ⟨l, hl, hr⟩ := List.mem_flatMap.mp hr
  exact (ht.ran l hl).succeeded r hr

/-! ### Failures -/

/-- A path leads on from where it began to each of its nodes. -/
theorem Walked.reached (ht : Walked w room begins c t) (hl : l ∈ t) :
    ∃ first, begins first ∧ Relation.ReflTransGen w.workflow.LeadsOn first l.node.id := by
  obtain ⟨before, after, hsplit⟩ := List.append_of_mem hl
  -- The induction is on how much of the trail is before the leg.
  induction hlength : before.length using Nat.strong_induction_on
    generalizing l before after with
  | _ n ih =>
      rcases Walk.led_of_walked ht hsplit with hbegins | ⟨id, hid, hleads⟩
      · exact ⟨_, hbegins, .refl⟩
      · obtain ⟨b, hb, rfl⟩ := Trail.mem_ids.mp hid
        obtain ⟨front, rest, rfl⟩ := List.append_of_mem hb
        have hshorter : front.length < n := by simp at hlength; omega
        have hsplit' : t = front ++ b :: (rest ++ l :: after) := by simpa using hsplit
        have hmem : b ∈ t := by simp [hsplit']
        obtain ⟨first, hfirst, hpath⟩ := ih _ hshorter hmem front _ hsplit' rfl
        exact ⟨first, hfirst, hpath.tail hleads⟩

theorem Fell.reached (h : Fell w room begins c results failure) :
    ∃ first, begins first ∧ Relation.ReflTransGen w.workflow.LeadsOn first failure.nodeId := by
  cases h with
  | behind ht hled =>
      rcases hled with hbegins | ⟨b, hb, hopens⟩
      · exact ⟨_, hbegins, .refl⟩
      · obtain ⟨first, hfirst, hpath⟩ := ht.reached hb
        obtain ⟨e, hlive, hsource, htarget⟩ := Walk.live_of_opens ht hb hopens
        have hleads := hlive.leadsOn
        rw [hsource, htarget] at hleads
        exact ⟨first, hfirst, hpath.tail hleads⟩

/-- Without parallel nodes, the results of a path that fails end with those of its failure, and all
those before are successful. -/
theorem Fell.unwinds (halone : ∀ node ∈ w.workflow.nodes, node.type ≠ .parallel)
    (h : Fell w room begins c results failure) :
    ∃ good failed, results = good ++ failed ∧ (∀ r ∈ good, r.success = true) ∧
      Unwinds w.workflow failure.nodeId failure.error failed := by
  induction room using Nat.strong_induction_on generalizing begins c results failure with
  | _ room ih =>
      cases h with
      | @behind t node inner e less startedAt millis ht _ hnode _ hless hran =>
          have htrail := ht.succeeded
          let result : NodeResult := ⟨node.id, node.type, .error e.message, startedAt, millis⟩
          rcases hran.error_cases with ⟨rfl, hown⟩ |
            ⟨body, before, block, start, i, failure, htype, rfl, rfl, hbefore, hblock, rfl⟩ |
            ⟨_, _, _, htype, -⟩
          · refine ⟨t.results, [result], ?_, htrail, .own hnode hown⟩
            rw [List.append_nil]
          · have hfell :=
              hblock.fell (Walk.tours_visitInside w less) (Walk.falls_visitInside w less)
            obtain ⟨good, failed, rfl, hgood, hunwinds⟩ := ih less hless hfell
            have hbody : w.workflow.InBody node.id failure.nodeId := by
              obtain ⟨first, ⟨e, he, -, rfl⟩, hpath⟩ := hfell.reached
              obtain ⟨hedge, hhandle⟩ := List.mem_filter.mp he
              exact ⟨e, hedge, by simpa using hhandle, hpath⟩
            have hblocks : ∀ r ∈ before.flatten, r.success = true := by
              intro r hr
              obtain ⟨b, hb, hr⟩ := List.mem_flatten.mp hr
              obtain ⟨_, _, hfollowed⟩ := hbefore b hb
              exact hfollowed.succeeded (fun l hl => hl.succeeded) r hr
            refine ⟨t.results ++ before.flatten ++ good, failed ++ [result], ?_, ?_,
              .loop hnode htype hbody hunwinds⟩
            · simp only [result, List.append_assoc]
            · intro r hr
              rcases List.mem_append.mp hr with hr | hr
              · exact (List.mem_append.mp hr).elim (htrail r) (hblocks r)
              · exact hgood r hr
          · exact absurd htype (halone node (Definition.mem_of_node? hnode))

end

namespace Walk

variable {room : Nat} {c : Context} {nodeId : String} {order : List String}

/-- What is told of a visit agrees.  If it does not fail, its results are all successful, and the
nodes that ran on its path are among them with their outputs and in their order; these are all the
results if no loop and no parallel node ran.  If it fails, the node and the message of its failure
are those of the last result and those that are noted in the context; and without parallel nodes the
results that are not successful are the last ones, from the node that failed outwards. -/
theorem visit_accounts (w : Walk H) (horder : w.workflow.order = .ok order)
    (hid : nodeId ∈ w.workflow.ids) (hroom : w.workflow.nodes.length ≤ room) {v : Visited}
    (h : (w.visit room nodeId c).Yields v) :
    match v.ending with
    | .ok c' =>
      (∀ r ∈ v.results, r.success = true) ∧
      ∃ new, c'.executed = c.executed ++ new ∧
        (new.map fun id => (id, c'.output? id)).Sublist (v.results.map NodeResult.entry) ∧
        ((∀ id ∈ new, ∀ node, w.workflow.node? id = some node →
            node.type ≠ .loop ∧ node.type ≠ .parallel) →
          (new.map fun id => (id, c'.output? id)) = v.results.map NodeResult.entry)
    | .error failure =>
      (∃ r, v.results.getLast? = some r ∧ r.nodeId = failure.nodeId ∧
        r.outcome = .error failure.error.message) ∧
      failure.context.errors = c.errors ++ [⟨failure.nodeId, failure.error.message⟩] ∧
      ((∀ node ∈ w.workflow.nodes, node.type ≠ .parallel) →
        ∃ good failed, v.results = good ++ failed ∧ (∀ r ∈ good, r.success = true) ∧
          (∀ r ∈ failed, r.success = false) ∧
          Unwinds w.workflow failure.nodeId failure.error failed) := by
  have hinside := yields_visitInside horder hid hroom h
  obtain ⟨results, failure | c'⟩ := v
  · have hfell := falls_visitInside w room _ _ _ _ hinside
    refine ⟨?_, ?_, fun halone => ?_⟩
    · cases hfell with
      | behind => exact ⟨_, List.getLast?_concat, rfl, rfl⟩
    · cases hfell with
      | @behind t node _ e =>
          show (c.after t).errors ++ [⟨node.id, e.message⟩] = _
          rw [Context.errors_after]
          rfl
    · obtain ⟨good, failed, hresults, hgood, hunwinds⟩ := hfell.unwinds halone
      exact ⟨good, failed, hresults, hgood, hunwinds.unsuccessful, hunwinds⟩
  · obtain ⟨t, htour, rfl, rfl⟩ := tours_visitInside w room _ _ _ _ hinside
    have ht := htour.toWalked
    refine ⟨ht.succeeded, t.ids, Context.executed_after, ?_, fun hplain => ?_⟩
    · rw [Trail.entries_of_nodup ht.nodup]
      exact Trail.sublist_results.map NodeResult.entry
    · have hinner : ∀ l ∈ t, l.inner = [] := by
        intro l hl
        obtain ⟨hnode, -⟩ := ht.ran l hl
        obtain ⟨hloop, hparallel⟩ := hplain _ (List.mem_map_of_mem hl) _ hnode
        exact Leg.inner_eq_nil (ht.ran l hl) hloop hparallel
      rw [Trail.entries_of_nodup ht.nodup, ← Trail.results_eq hinner]

/-- The step fails for the first item, and with it the loop. -/
theorem looping_accounts :
    let w := looping .primitive
    let now : Time.Instant := ⟨0, 0⟩
    let cause : RunError := .invalidConfig "step" "either primitive_id or primitive is required"
    let e : RunError := .loopIteration "each" 0 cause
    let result (id : String) (type : NodeType) (outcome : Except String Json) : NodeResult :=
      ⟨id, type, outcome, now, elapsedMillis now now⟩
    let failed := [result "step" .primitive (.error cause.message),
      result "each" .loop (.error e.message)]
    let results := result "start" .trigger (.ok loopingStart.trigger) :: failed
    let failure := failPath "each" e (loopingStart.withOutput "start" loopingStart.trigger)
    w.workflow.order = .ok ["start", "each", "step", "end"] ∧ "start" ∈ w.workflow.ids ∧
    (∀ node ∈ w.workflow.nodes, node.type ≠ .parallel) ∧
    (w.visit 4 "start" loopingStart).Yields ⟨results, .error failure⟩ ∧
    failure.context.errors = [⟨"each", e.message⟩] ∧
    ∃ good bad, results = good ++ bad ∧ (∀ r ∈ good, r.success = true) ∧
      Unwinds w.workflow "each" e bad := by
  intro w now cause e result failed results failure
  have horder : w.workflow.order = .ok ["start", "each", "step", "end"] := by rfl
  have hid : "start" ∈ w.workflow.ids := List.mem_cons_self
  have halone : ∀ node ∈ w.workflow.nodes, node.type ≠ .parallel := by
    simp [w, looping, Definition.create]
  have hvisit : (w.visit 4 "start" loopingStart).Yields ⟨results, .error failure⟩ := by
    refine Exists.intro now (Exists.intro false (Exists.intro now ?_))
    refine Exists.intro now (Exists.intro false ?_)
    refine Exists.intro now (Exists.intro false (Exists.intro now ?_))
    refine Exists.intro now ?_
    exact rfl
  obtain ⟨-, herrors, hunwinds⟩ := visit_accounts w horder hid (le_refl 4) hvisit
  obtain ⟨good, bad, hresults, hgood, -, hunwinds⟩ := hunwinds halone
  exact ⟨horder, hid, halone, hvisit, herrors, good, bad, hresults, hgood, hunwinds⟩

end Walk

end Workflow
