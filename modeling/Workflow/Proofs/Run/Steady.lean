import Workflow.Proofs.Run.Returns

/-!
# Walks in a setting

In a setting that suits it, a walk comes to one result, whatever order its parts take their steps in
and whatever others do meanwhile; only the times that are noted may differ.  This is shown for each
part of a walk from what the visits inside it come to, and for visits by induction on their room.
What loops and parallel nodes come to is said in terms of what their items and branches come to by
themselves.
-/

namespace Workflow

open Proc

variable {H : Type}

/-! ### Results without times -/

/-- A result but for the time at which the node began and how long it took. -/
def NodeResult.untimed (r : NodeResult) : NodeResult :=
  { r with startedAt := ⟨0, 0⟩, durationMs := 0 }

/-- What came of a visit, but for the times. -/
def Visited.untimed (v : Visited) : Visited :=
  { v with results := v.results.map NodeResult.untimed }

/-- What came of executing a node, but for the times. -/
def Executed.untimed (x : Executed) : Executed :=
  { x with results := x.results.map NodeResult.untimed }

namespace Setting

/-- In a setting, a visit comes to one result wherever it begins. -/
def Fixes (k : Setting) (visit : Visitor H) : Prop :=
  ∀ nodeId c, c.executionId = k.execution →
    ∃ v : Visited, v.IsOf k.execution ∧ k.Settles (visit nodeId c) (·.untimed = v)

end Setting

namespace Walk

variable {k : Setting} {w : Walk H} {visit : Visitor H} {c : Context} {node : Node}

/-! ### Edges -/

/-- Whether an edge may be gone along at an instant. -/
def holdsAt (now : Time.Instant) (c : Context) (e : Edge) : Bool :=
  e.guard.all fun guard => guard.holds (c.scope now)

theorem guardHolds_settles (ht : k.Timeless w.workflow) {now : Time.Instant} (hnow : k.shown now)
    {e : Edge} (he : e ∈ w.workflow.edges) (c : Context) :
    k.Settles (guardHolds e c : Proc (Call H) Bool) (· = holdsAt now c e) := by
  rw [guardHolds, holdsAt]
  cases hguard : e.guard with
  | none => exact rfl
  | some guard =>
      refine Setting.replies_clock fun now' hnow' => ?_
      exact ht.guard e he guard hguard c now' now hnow' hnow

theorem follows_settles (hk : k.Suits w) (ht : k.Timeless w.workflow) (output : Json) {e : Edge}
    (he : e ∈ w.workflow.edges) (c : Context) :
    ∃ chosen, k.Settles (follows node output e c : Proc (Call H) Bool) (· = chosen) := by
  obtain ⟨now, hnow⟩ := hk.clock
  rw [follows]
  split
  · exact ⟨_, guardHolds_settles ht hnow he c⟩
  · exact ⟨false, rfl⟩

theorem follow_settles {choose : Edge → Context → Proc (Call H) Bool} {edges : List Edge}
    (hchoose : ∀ e ∈ edges, ∀ c, ∃ chosen, k.Settles (choose e c) (· = chosen))
    (hvisit : k.Fixes visit) (hc : c.executionId = k.execution) :
    ∃ v : Visited, v.IsOf k.execution ∧
      ∀ results, k.Settles (follow visit choose edges c results) fun a =>
        a.untimed = ⟨results.map NodeResult.untimed ++ v.results, v.ending⟩ := by
  induction edges generalizing c with
  | nil =>
      refine ⟨⟨[], .ok c⟩, ?_, fun results => by simp [follow, Visited.untimed]⟩
      rintro last ⟨⟩
      exact hc
  | cons e rest ih =>
      have hrest : ∀ e ∈ rest, ∀ c, ∃ chosen, k.Settles (choose e c) (· = chosen) :=
        fun e he => hchoose e (List.mem_cons_of_mem _ he)
      obtain ⟨chosen, hchosen⟩ := hchoose e List.mem_cons_self c
      simp only [follow]
      cases chosen with
      | false =>
          obtain ⟨v, hof, hv⟩ := ih hrest hc
          refine ⟨v, hof, fun results => hchosen.andThen fun chosen h => ?_⟩
          subst h
          exact hv results
      | true =>
          obtain ⟨⟨inner, ending⟩, hof, hvisited⟩ := hvisit e.target c hc
          cases ending with
          | error failure =>
              refine ⟨⟨inner, .error failure⟩, hof, fun results => ?_⟩
              refine hchosen.andThen fun chosen h => ?_
              subst h
              refine hvisited.andThen fun visited hv => ?_
              obtain ⟨hinner, hending⟩ := Visited.mk.inj hv
              simp [hending, Visited.untimed, hinner]
          | ok c' =>
              obtain ⟨v, hofRest, hv⟩ := ih hrest (hof c' rfl)
              refine ⟨⟨inner ++ v.results, v.ending⟩, hofRest, fun results =>
                hchosen.andThen fun chosen h => ?_⟩
              subst h
              refine hvisited.andThen fun visited hvisited => ?_
              obtain ⟨hinner, hending⟩ := Visited.mk.inj hvisited
              simp only [hending]
              exact (hv _).mono fun a ha => by rw [ha]; simp [hinner]

/-! ### Items -/

/-- What a loop comes to, from what its body comes to for each index and item. -/
def gatherItems (nodeId : String) (baseline : Nat) (body : Nat → Json → Visited) :
    Nat → List Json → List NodeResult × Except RunError (List Json)
  | _, [] => ([], .ok [])
  | index, item :: rest =>
    let visited := body index item
    match visited.ending with
    | .error failure => (visited.results, .error (.loopIteration nodeId index failure.error))
    | .ok last =>
      let more := gatherItems nodeId baseline body (index + 1) rest
      (visited.results ++ more.1,
        more.2.map ((last.lastOutputSince baseline).getD item :: ·))

/-- What the body of a loop comes to for each index and item, by itself. -/
theorem body_settles (hk : k.Suits w) (ht : k.Timeless w.workflow) (hvisit : k.Fixes visit)
    {edges : List Edge} (hedges : ∀ e ∈ edges, e ∈ w.workflow.edges)
    (hc : c.executionId = k.execution) (config : LoopConfig) :
    ∃ body : Nat → Json → Visited, ∀ index item,
      k.Settles (follow visit guardHolds edges
        (c.withItem config.itemVariable item config.indexVariable index) [])
        (·.untimed = body index item) := by
  obtain ⟨now, hnow⟩ := hk.clock
  have hbody : ∀ index item, ∃ v : Visited, k.Settles (follow visit guardHolds edges
      (c.withItem config.itemVariable item config.indexVariable index) []) (·.untimed = v) := by
    intro index item
    obtain ⟨v, -, hv⟩ := follow_settles
      (fun e he c => ⟨_, guardHolds_settles ht hnow (hedges e he) c⟩) hvisit
      ((c.executionId_withItem config.itemVariable item config.indexVariable index).trans hc)
    exact ⟨_, hv []⟩
  choose body hbody using hbody
  exact ⟨body, hbody⟩

theorem iterate_settles {nodeId : String} {config : LoopConfig} {edges : List Edge}
    {body : Nat → Json → Visited}
    (hbody : ∀ index item, k.Settles (follow visit guardHolds edges
      (c.withItem config.itemVariable item config.indexVariable index) [])
      (·.untimed = body index item)) (index : Nat) (items : List Json)
    (blocks : List (List NodeResult)) (outputs : List Json) :
    k.Settles (iterate visit nodeId config edges c index items blocks outputs) fun x =>
      x.untimed =
        ⟨blocks.reverse.flatten.map NodeResult.untimed ++
            (gatherItems nodeId c.executed.length body index items).1,
          (gatherItems nodeId c.executed.length body index items).2.map fun rest =>
            .arr (outputs.reverse ++ rest)⟩ := by
  induction items generalizing index blocks outputs with
  | nil => simp [iterate, Executed.untimed, gatherItems, Except.map]
  | cons item rest ih =>
      rw [iterate]
      refine (hbody index item).andThen fun visited hvisited => ?_
      rw [gatherItems]
      have hresults : visited.results.map NodeResult.untimed = (body index item).results := by
        rw [← hvisited, Visited.untimed]
      have hending : visited.ending = (body index item).ending := by
        rw [← hvisited, Visited.untimed]
      rw [← hending]
      cases visited.ending with
      | error failure =>
          simp only [settles_done, Executed.untimed, ← hresults]
          simp [Except.map]
      | ok last =>
          refine (ih _ _ _).mono fun x hx => ?_
          simp only [hx, ← hresults]
          cases (gatherItems nodeId c.executed.length body (index + 1) rest).2 <;>
            simp [Except.map]

theorem mem_edges_of_bodyEdges (node : Node) {e : Edge} (he : e ∈ w.bodyEdges node) :
    e ∈ w.workflow.edges :=
  (Definition.mem_outgoing.mp (List.mem_of_mem_filter he)).1

/-- The clock is no part of where the items of a loop are looked for. -/
theorem items_eq (w : Walk H) (nodeId : String) (config : LoopConfig) (c : Context)
    (now now' : Time.Instant) : w.items nodeId config c now = w.items nodeId config c now' := by
  have hroot : (c.scope now).root = (c.scope now').root := by
    funext root
    cases root <;> rfl
  simp only [items, Scope.resolve, hroot]

theorem runLoop_settles (hk : k.Suits w) (ht : k.Timeless w.workflow) (hvisit : k.Fixes visit)
    (node : Node) (hc : c.executionId = k.execution) :
    ∃ x : Executed, ∀ now, k.Settles (w.runLoop visit node c now) (·.untimed = x) := by
  simp only [runLoop]
  cases node.read LoopConfig.decoder with
  | error message => exact ⟨_, fun _ => rfl⟩
  | ok config =>
      simp only [items_eq w node.id config c _ ⟨0, 0⟩]
      cases w.items node.id config c ⟨0, 0⟩ with
      | error e => exact ⟨_, fun _ => rfl⟩
      | ok items =>
          obtain ⟨body, hbody⟩ :=
            body_settles hk ht hvisit (fun _ => mem_edges_of_bodyEdges node) hc config
          exact ⟨_, fun _ => iterate_settles hbody 0 items [] []⟩

/-! ### Branches -/

theorem chosen_settles (ht : k.Timeless w.workflow) {now : Time.Instant} (hnow : k.shown now)
    (c : Context) {edges : List Edge} (hedges : ∀ e ∈ edges, e ∈ w.workflow.edges) :
    k.Settles (chosen c edges : Proc (Call H) (List Edge)) (· = edges.filter (holdsAt now c)) := by
  induction edges with
  | nil => exact rfl
  | cons e rest ih =>
      refine (guardHolds_settles ht hnow (hedges e List.mem_cons_self) c).andThen fun _ h => ?_
      subst h
      refine (ih fun e he => hedges e (List.mem_cons_of_mem _ he)).andThen fun _ h => ?_
      subst h
      rw [settles_done, List.filter_cons]

/-- What a parallel node comes to, from what came of its branches. -/
def gathered (nodeId : String) (baseline : Nat) (branches : List Edge) (visits : List Visited) :
    Executed :=
  ⟨visits.flatMap Visited.results, (gather nodeId baseline (branches.zip visits)).map Json.arr⟩

/-- Failures and outputs of branches have nothing to do with times. -/
theorem gather_untimed (nodeId : String) (baseline : Nat) (branches : List Edge)
    (visits : List Visited) :
    gather nodeId baseline (branches.zip (visits.map Visited.untimed)) =
      gather nodeId baseline (branches.zip visits) := by
  induction branches generalizing visits with
  | nil => rfl
  | cons e rest ih =>
      cases visits with
      | nil => rfl
      | cons v visits =>
          simp only [List.map_cons, List.zip_cons_cons, gather, ih]
          rfl

theorem gathered_untimed (nodeId : String) (baseline : Nat) (branches : List Edge)
    (visits : List Visited) :
    (gathered nodeId baseline branches visits).untimed =
      gathered nodeId baseline branches (visits.map Visited.untimed) := by
  rw [gathered, gathered, gather_untimed, Executed.untimed, List.map_flatMap, List.flatMap_map]
  rfl

theorem map_untimed_of_forall₂ {branch : Edge → Visited} {branches : List Edge}
    {visits : List Visited} (h : List.Forall₂ (fun e v => v.untimed = branch e) branches visits) :
    visits.map Visited.untimed = branches.map branch := by
  induction h with
  | nil => rfl
  | cons hv _ ih => rw [List.map_cons, List.map_cons, hv, ih]

theorem runParallel_settles {branch : Edge → Visited} {branches : List Edge}
    (hchosen : k.Settles (chosen c (w.branchEdges node) : Proc (Call H) _) (· = branches))
    (hbranch : ∀ e ∈ branches, k.Settles (visit e.target c) (·.untimed = branch e)) :
    k.Settles (w.runParallel visit node c)
      (·.untimed = gathered node.id c.executed.length branches (branches.map branch)) := by
  refine hchosen.andThen fun _ h => ?_
  subst h
  refine (settles_sideBySide hbranch).andThen fun visits hvisits => ?_
  rw [← map_untimed_of_forall₂ hvisits]
  exact gathered_untimed _ _ _ visits

theorem mem_edges_of_branchEdges (node : Node) {e : Edge} (he : e ∈ w.branchEdges node) :
    e ∈ w.workflow.edges := (Definition.mem_outgoing.mp (List.mem_of_mem_filter he)).1

/-- What each branch of a parallel node comes to by itself. -/
theorem branch_settles (hvisit : k.Fixes visit) (hc : c.executionId = k.execution) :
    ∃ branch : Edge → Visited, ∀ e, k.Settles (visit e.target c) (·.untimed = branch e) := by
  choose branch hbranch using fun e : Edge => hvisit e.target c hc
  exact ⟨branch, fun e => (hbranch e).2⟩

/-! ### Nodes -/

theorem runPrimitive_settles (hk : k.Suits w) (ht : k.Timeless w.workflow)
    (hnode : node ∈ w.workflow.nodes) (htype : node.type = .primitive)
    (hc : c.executionId = k.execution) :
    ∃ outcome, ∀ now, k.shown now → k.Settles (w.runPrimitive node c now) (· = outcome) := by
  simp only [runPrimitive]
  cases hconfig : node.read PrimitiveConfig.decoder with
  | error message => exact ⟨_, fun _ _ => rfl⟩
  | ok config =>
      simp only
      cases primitiveRef node.id config with
      | error e => exact ⟨_, fun _ _ => rfl⟩
      | ok reference =>
          obtain ⟨now₀, hnow₀⟩ := hk.clock
          obtain ⟨outcome, houtcome⟩ := hk.adapter_settles reference
            (.obj (PrimitiveConfig.mergeInput config.fixed
              (Mapping.resolve (c.scope now₀) config.mapping)))
            ⟨some c.executionId, some c.workflowId, some node.id, some c.executionId⟩
            (congrArg some hc)
          refine ⟨primitiveOutcome node.id outcome, fun now hnow => ?_⟩
          simp only [ht.input node hnode config htype hconfig c now now₀ hnow hnow₀]
          exact houtcome.andThen fun _ h => h ▸ rfl

theorem runDelay_settles (node : Node) (hc : c.executionId = k.execution) :
    ∃ outcome, k.Settles (runDelay node c : Proc (Call H) (Except RunError Json))
      (· = outcome) := by
  rw [runDelay]
  cases node.read DelayConfig.decoder with
  | error message => exact ⟨_, rfl⟩
  | ok config =>
      simp only
      cases config.nanos? with
      | none => exact ⟨_, rfl⟩
      | some nanos =>
          refine ⟨_, rfl, ?_⟩
          rintro stop ⟨⟩
          rw [hc]
          refine Setting.replies_isStopped.mono fun stopped h hstop => ?_
          rw [h] at hstop
          cases hstop

theorem alone_settles {p : Proc (Call H) (Except RunError Json)}
    {outcome : Except RunError Json} (h : k.Settles p (· = outcome)) :
    k.Settles (alone p) (·.untimed = ⟨[], outcome⟩) :=
  h.andThen fun _ h => h ▸ rfl

theorem execute_settles (hk : k.Suits w) (ht : k.Timeless w.workflow) (hvisit : k.Fixes visit)
    (hnode : node ∈ w.workflow.nodes) (hc : c.executionId = k.execution) :
    ∃ x : Executed, ∀ now, k.shown now →
      k.Settles (w.execute visit node c now) (·.untimed = x) := by
  obtain ⟨now₀, hnow₀⟩ := hk.clock
  simp only [execute]
  cases htype : node.type with
  | trigger => exact ⟨_, fun _ _ => rfl⟩
  | primitive =>
      obtain ⟨outcome, houtcome⟩ := runPrimitive_settles hk ht hnode htype hc
      exact ⟨_, fun now hnow => alone_settles (houtcome now hnow)⟩
  | condition =>
      simp only
      cases hconfig : node.read conditionConfig with
      | error message =>
          exact ⟨⟨[], .error (.invalidConfig node.id message)⟩, fun _ _ => rfl⟩
      | ok condition =>
          have hsame := ht.condition node hnode condition htype hconfig c
          refine ⟨⟨[], .ok (.bool (condition.holds (c.scope now₀)))⟩, fun now hnow => ?_⟩
          exact congrArg (fun holds => Executed.mk [] (.ok (.bool holds)))
            (hsame now now₀ hnow hnow₀)
  | loop =>
      obtain ⟨x, hx⟩ := runLoop_settles hk ht hvisit node hc
      exact ⟨x, fun now _ => hx now⟩
  | delay =>
      obtain ⟨outcome, houtcome⟩ := runDelay_settles (H := H) node hc
      exact ⟨_, fun _ _ => alone_settles houtcome⟩
  | parallel =>
      have hchosen := chosen_settles ht hnow₀ c fun _ => mem_edges_of_branchEdges node
      obtain ⟨branch, hbranch⟩ := branch_settles hvisit hc
      exact ⟨_, fun _ _ => runParallel_settles hchosen fun e _ => hbranch e⟩
  | output =>
      simp only
      cases hconfig : node.read outputConfig with
      | error message =>
          exact ⟨⟨[], .error (.invalidConfig node.id message)⟩, fun _ _ => rfl⟩
      | ok mapping =>
          have hsame := ht.output node hnode mapping htype hconfig c
          refine ⟨⟨[], .ok (.obj (Mapping.resolve (c.scope now₀) mapping))⟩, fun now hnow => ?_⟩
          exact congrArg (fun fields => Executed.mk [] (.ok (.obj fields)))
            (hsame now now₀ hnow hnow₀)

/-! ### Visits -/

theorem proceed_settles (hk : k.Suits w) (ht : k.Timeless w.workflow) (hvisit : k.Fixes visit)
    (node : Node) (hc : c.executionId = k.execution) (x : Executed) :
    ∃ v : Visited, v.IsOf k.execution ∧ ∀ startedAt finishedAt (executed : Executed),
      executed.untimed = x →
        k.Settles (w.proceed visit node c startedAt finishedAt executed) (·.untimed = v) := by
  obtain ⟨inner, e | output⟩ := x
  · let noted : NodeResult := ⟨node.id, node.type, .error e.message, ⟨0, 0⟩, 0⟩
    refine ⟨⟨inner ++ [noted], .error (failPath node.id e c)⟩, ?_, ?_⟩
    · rintro last ⟨⟩
    · rintro startedAt finishedAt ⟨results, outcome⟩ hx
      obtain ⟨rfl, rfl⟩ := Executed.mk.inj hx
      simp [proceed, Visited.untimed, NodeResult.untimed, noted]
  · let noted : NodeResult := ⟨node.id, node.type, .ok output, ⟨0, 0⟩, 0⟩
    have hfollows : ∀ e ∈ w.workflow.outgoing node.id, ∀ c, ∃ chosen,
        k.Settles (follows node output e c : Proc (Call H) Bool) (· = chosen) :=
      fun e he c => follows_settles hk ht output (Definition.mem_outgoing.mp he).1 c
    obtain ⟨v, hof, hv⟩ :=
      follow_settles (c := c.withOutput node.id output) hfollows hvisit hc
    refine ⟨⟨inner ++ noted :: v.results, v.ending⟩, hof, ?_⟩
    rintro startedAt finishedAt ⟨results, outcome⟩ hx
    obtain ⟨rfl, rfl⟩ := Executed.mk.inj hx
    refine (hv _).mono fun a ha => ?_
    simp [ha, NodeResult.untimed, noted]

/-- In a setting that suits the walk a visit comes to one result, but for the times, however much
room it has. -/
theorem visit_fixes (hk : k.Suits w) (ht : k.Timeless w.workflow) (room : Nat) :
    k.Fixes (w.visit room) := by
  induction room with
  | zero =>
      intro nodeId c hc
      refine ⟨⟨[], .error (failPath nodeId (.graph .cycle) c)⟩, ?_, rfl⟩
      rintro last ⟨⟩
  | succ room ih =>
      intro nodeId c hc
      rw [visit]
      cases hnode : w.workflow.node? nodeId with
      | none =>
          refine ⟨⟨[], .error (failPath nodeId (.nodeNotFound nodeId) c)⟩, ?_, rfl⟩
          rintro last ⟨⟩
      | some node =>
          simp only
          split
          · refine ⟨⟨[], .ok c⟩, ?_, rfl⟩
            rintro last ⟨⟩
            exact hc
          · obtain ⟨x, hx⟩ := execute_settles hk ht ih (Definition.mem_of_node? hnode) hc
            obtain ⟨v, hof, hv⟩ := proceed_settles hk ht ih node hc x
            refine ⟨v, hof, Setting.replies_clock fun startedAt hstarted => ?_⟩
            rw [hc]
            refine Setting.replies_isStopped.mono fun stopped hstopped => ?_
            subst hstopped
            refine (hx startedAt hstarted).andThen fun executed hexecuted => ?_
            exact Setting.replies_clock fun finishedAt _ => hv startedAt finishedAt _ hexecuted

end Walk

end Workflow
