import Workflow.Proofs.Run.Items

/-!
# Bodies that do not run

For each item the body of a loop begins where the loop is, with all that has run before it.  A node
that has run before is not run again, neither by an edge into the body nor deeper in it.  So a body
runs for each item just if the path has not been at the targets of its edges; if it has been at all
of them nothing is done for any item, and what the loop has for output is its items. -/

namespace Workflow

variable {H : Type}

theorem Context.executed_withItem (c : Context) (itemVariable : String) (item : Json)
    (indexVariable : Option String) (index : Nat) :
    (c.withItem itemVariable item indexVariable index).executed = c.executed := by
  cases indexVariable <;> rfl

namespace Context

variable {c c₁ c₂ last : Context} {results results₁ results₂ : List NodeResult}

/-- What is noted from one context to another.  All results are successful, and of nodes that had
not run; there is one for each node that has run since, and the last one is that of the node that
ran last. -/
inductive Noted (c : Context) : List NodeResult → Context → Prop where
  | nothing : Noted c [] c
  | upTo {results : List NodeResult} {r : NodeResult} {new : List String} {output : Json}
      {last : Context} :
      last.executed = c.executed ++ (new ++ [r.nodeId]) → r.outcome = .ok output →
        last.output? r.nodeId = some output →
        (∀ id ∈ new, ∃ r ∈ results, r.nodeId = id) →
        (∀ r' ∈ results ++ [r], r'.success = true ∧ r'.nodeId ∉ c.executed) →
          Noted c (results ++ [r]) last

namespace Noted

theorem fresh (h : c.Noted results last) :
    ∀ r ∈ results, r.success = true ∧ r.nodeId ∉ c.executed := by
  cases h with
  | nothing => simp
  | upTo _ _ _ _ hfresh => exact hfresh

/-- What has run since had not run before, and has a result. -/
theorem executed (h : c.Noted results last) :
    ∃ new, last.executed = c.executed ++ new ∧ ∀ id ∈ new, ∃ r ∈ results, r.nodeId = id := by
  cases h with
  | nothing => exact ⟨[], by simp⟩
  | @upTo results r new _ _ hexecuted _ _ hnew _ =>
      refine ⟨new ++ [r.nodeId], hexecuted, fun id hid => ?_⟩
      rcases List.mem_append.mp hid with hid | hid
      · obtain ⟨r', hr', rfl⟩ := hnew id hid
        exact ⟨r', List.mem_append_left _ hr', rfl⟩
      · exact ⟨r, by simp, (List.mem_singleton.mp hid).symm⟩

theorem trans (h₁ : c.Noted results₁ c₁) (h₂ : c₁.Noted results₂ c₂) :
    c.Noted (results₁ ++ results₂) c₂ := by
  obtain ⟨new₁, hexecuted₁, hnew₁⟩ := h₁.executed
  cases h₂ with
  | nothing => rwa [List.append_nil]
  | @upTo results₂ r new₂ output _ hexecuted₂ hr houtput hnew₂ hfresh =>
      rw [← List.append_assoc]
      have hexecuted : c₂.executed = c.executed ++ (new₁ ++ new₂ ++ [r.nodeId]) := by
        rw [hexecuted₂, hexecuted₁]
        simp
      refine .upTo hexecuted hr houtput ?_ ?_
      · intro id hid
        rcases List.mem_append.mp hid with hid | hid
        · obtain ⟨r', hr', rfl⟩ := hnew₁ id hid
          exact ⟨r', List.mem_append_left _ hr', rfl⟩
        · obtain ⟨r', hr', rfl⟩ := hnew₂ id hid
          exact ⟨r', List.mem_append_right _ hr', rfl⟩
      · intro r' hr'
        rw [List.append_assoc] at hr'
        rcases List.mem_append.mp hr' with hr' | hr'
        · exact h₁.fresh r' hr'
        · obtain ⟨hsuccess, hnotMem⟩ := hfresh r' hr'
          exact ⟨hsuccess, fun hold => hnotMem (hexecuted₁ ▸ List.mem_append_left _ hold)⟩

/-- A node that runs has a result behind those of the nodes inside it. -/
theorem node {r : NodeResult} {output : Json}
    (hinner : ∀ r' ∈ results, r'.success = true ∧ r'.nodeId ∉ c.executed)
    (hnew : r.nodeId ∉ c.executed) (hr : r.outcome = .ok output) :
    c.Noted (results ++ [r]) (c.withOutput r.nodeId output) := by
  have hexecuted : (c.withOutput r.nodeId output).executed = c.executed ++ ([] ++ [r.nodeId]) := rfl
  refine .upTo hexecuted hr (Keyed.get?_insert_self _ _ _) (by simp) fun r' hr' => ?_
  rcases List.mem_append.mp hr' with hr' | hr'
  · exact hinner r' hr'
  · rw [List.mem_singleton.mp hr', NodeResult.success, hr]
    exact ⟨rfl, hnew⟩

/-- The last output since then is that of the last result, if there is one. -/
theorem lastOutputSince (h : c.Noted results last) (item : Json) :
    match results.getLast? with
    | some r => r.outcome = .ok ((last.lastOutputSince c.executed.length).getD item)
    | none => (last.lastOutputSince c.executed.length).getD item = item := by
  cases h with
  | nothing => simp [Context.lastOutputSince]
  | @upTo results r new output last hexecuted hr houtput _ _ =>
      have hlast : last.lastOutputSince c.executed.length = some output := by
        rw [Context.lastOutputSince, hexecuted, List.drop_left, List.getLast?_concat]
        exact houtput
      simp only [List.getLast?_concat, hlast, Option.getD_some, hr]

end Noted

end Context

namespace Walk

variable {w : Walk H} {visit : Visitor H} {choose : Edge → Context → Proc (Call H) Bool}
  {edges : List Edge} {node : Node} {c last : Context} {results : List NodeResult}

/-- Visits that do not fail note what they do: their node has run then, and if it had run before
they do nothing. -/
def Notes (visit : Visitor H) : Prop :=
  ∀ nodeId c results last, (visit nodeId c).Yields ⟨results, .ok last⟩ →
    c.Noted results last ∧ nodeId ∈ last.executed ∧ (nodeId ∈ c.executed → results = [])

theorem Followed.noted (hvisit : Notes visit)
    (h : Followed visit choose edges c ⟨results, .ok last⟩) :
    c.Noted results last ∧ (∀ id, Compels choose edges id → id ∈ last.executed) ∧
      ((∀ e ∈ edges, e.target ∈ c.executed) → results = []) := by
  generalize hv : (⟨results, .ok last⟩ : Visited) = v at h
  induction h generalizing results with
  | done c =>
      obtain ⟨rfl, hending⟩ := Visited.mk.inj hv
      obtain rfl := Except.ok.inj hending
      exact ⟨.nothing, by simp [Compels], fun _ => rfl⟩
  | @passed e rest c v hchosen _ ih =>
      obtain ⟨hnoted, hreached, hnothing⟩ := ih hv
      refine ⟨hnoted, ?_, fun hold => hnothing fun e he => hold e (List.mem_cons_of_mem _ he)⟩
      rintro id ⟨e', he', hsure, hid⟩
      rcases List.mem_cons.mp he' with rfl | he'
      · cases hsure c false hchosen
      · exact hreached id ⟨e', he', hsure, hid⟩
  | @went e rest c c₁ inner v hchosen hvisited _ ih =>
      obtain ⟨rfl, hending⟩ := Visited.mk.inj hv
      have hv' : (⟨v.results, .ok last⟩ : Visited) = v := by rw [hending]
      obtain ⟨hinner, htarget, hinnerNil⟩ := hvisit _ _ _ _ hvisited
      obtain ⟨hrest, hreached, hnothing⟩ := ih hv'
      obtain ⟨new₁, hexecuted₁, -⟩ := hinner.executed
      obtain ⟨new₂, hexecuted₂, -⟩ := hrest.executed
      refine ⟨hinner.trans hrest, ?_, fun hold => ?_⟩
      · rintro id ⟨e', he', hsure, hid⟩
        rcases List.mem_cons.mp he' with rfl | he'
        · rw [hexecuted₂, ← hid]
          exact List.mem_append_left _ htarget
        · exact hreached id ⟨e', he', hsure, hid⟩
      · have hrestNil : v.results = [] := by
          refine hnothing fun e' he' => ?_
          rw [hexecuted₁]
          exact List.mem_append_left _ (hold e' (List.mem_cons_of_mem _ he'))
        rw [hinnerNil (hold e List.mem_cons_self), hrestNil, List.append_nil]
  | failed => simp at hv

/-! ### Bodies -/

/-- What the body of a loop does for an item, by its results and the output for the item. -/
structure BodyRan (body : List Edge) (c : Context) (item : Json) (block : List NodeResult)
    (output : Json) : Prop where
  /-- Of nodes that had run before there are no results. -/
  fresh : ∀ r ∈ block, r.success = true ∧ r.nodeId ∉ c.executed
  /-- Where an edge without a guard leads a node has run, unless it had run before. -/
  reached : ∀ e ∈ body, e.guard = none → e.target ∉ c.executed → ∃ r ∈ block, r.nodeId = e.target
  /-- The output is that of the last node that ran, and the item itself only if none has run. -/
  output : match block.getLast? with
    | some r => r.outcome = .ok output
    | none => output = item
  /-- None has run if all to which an edge leads had run before. -/
  nothing : (∀ e ∈ body, e.target ∈ c.executed) → block = []

namespace BodyRan

variable {body : List Edge} {item output : Json} {block : List NodeResult}

theorem reached_iff (h : BodyRan body c item block output) {e : Edge} (he : e ∈ body)
    (hguard : e.guard = none) :
    (∃ r ∈ block, r.nodeId = e.target ∧ r.success = true) ↔ e.target ∉ c.executed := by
  constructor
  · rintro ⟨r, hr, hid, -⟩
    exact hid ▸ (h.fresh r hr).2
  · intro hnew
    obtain ⟨r, hr, hid⟩ := h.reached e he hguard hnew
    exact ⟨r, hr, hid, (h.fresh r hr).1⟩

theorem eq_item (h : BodyRan body c item block output) (hold : ∀ e ∈ body, e.target ∈ c.executed) :
    output = item := by
  have houtput := h.output
  rwa [h.nothing hold] at houtput

end BodyRan

theorem Followed.bodyRan (hvisit : Notes visit) {body : List Edge} {config : LoopConfig}
    {index : Nat} {item : Json} {block : List NodeResult}
    (h : Followed visit guardHolds body
      (c.withItem config.itemVariable item config.indexVariable index) ⟨block, .ok last⟩) :
    BodyRan body c item block ((last.lastOutputSince c.executed.length).getD item) := by
  obtain ⟨hnoted, hreached, hnothing⟩ := h.noted hvisit
  have hfresh := hnoted.fresh
  have houtput := hnoted.lastOutputSince item
  obtain ⟨new, hexecuted, hnew⟩ := hnoted.executed
  rw [Context.executed_withItem] at hfresh houtput hexecuted hnothing
  refine ⟨hfresh, fun e he hguard htarget => ?_, houtput, hnothing⟩
  have hran : e.target ∈ last.executed :=
    hreached e.target ⟨e, he, fun _ _ => guardHolds_yields hguard, rfl⟩
  rw [hexecuted] at hran
  exact hnew _ ((List.mem_append.mp hran).resolve_left htarget)

theorem Iterated.mapped {nodeId : String} {config : LoopConfig} {body : List Edge} {index : Nat}
    {items : List Json} {blocks : List (List NodeResult)} {outcome : Except RunError (List Json)}
    (h : Iterated visit nodeId config body c index items blocks outcome) :
    ∃ visits, blocks = visits.map Visited.results ∧
      Mapped (fun i item v => Followed visit guardHolds body
        (c.withItem config.itemVariable item config.indexVariable i) v) nodeId c.executed.length
        index items visits outcome := by
  induction h with
  | done index => exact ⟨[], rfl, .done index⟩
  | @went index item rest block last blocks outcome hblock _ ih =>
      obtain ⟨visits, rfl, hmapped⟩ := ih
      exact ⟨⟨block, .ok last⟩ :: visits, rfl, .went hblock rfl hmapped⟩
  | @failed index item rest block failure hblock =>
      exact ⟨[⟨block, .error failure⟩], rfl, .failed hblock rfl⟩

theorem Iterated.bodyRan (hvisit : Notes visit) {nodeId : String} {config : LoopConfig}
    {body : List Edge} {items outputs : List Json} {blocks : List (List NodeResult)}
    (h : Iterated visit nodeId config body c 0 items blocks (.ok outputs)) :
    blocks.length = items.length ∧ outputs.length = items.length ∧
      ∀ (i : Nat) item block output, items[i]? = some item → blocks[i]? = some block →
        outputs[i]? = some output → BodyRan body c item block output := by
  obtain ⟨visits, rfl, hmapped⟩ := h.mapped
  obtain ⟨hvisits, houtputs, hall⟩ := mapped_ok_iff.mp hmapped
  refine ⟨by rw [List.length_map, hvisits], houtputs, fun i item block output hitem hblock ho => ?_⟩
  obtain ⟨⟨block, ending⟩, hv, rfl⟩ := by simpa using hblock
  obtain ⟨hfollowed, last, rfl, rfl⟩ := hall i item _ output hitem hv ho
  exact hfollowed.bodyRan hvisit

/-! ### Visits -/

/-- What is inside a node that has an output had not run before. -/
theorem Ran.fresh (hvisit : Notes visit) {output : Json}
    (h : Ran w visit node c ⟨results, .ok output⟩) :
    ∀ r ∈ results, r.success = true ∧ r.nodeId ∉ c.executed := by
  rcases h.ok_cases with rfl | ⟨_, _, htype, -⟩ | ⟨visits, -, rfl, hvisits⟩
  · simp
  · -- The cases of a node tell in which context each block of a loop began.
    generalize hx : (⟨results, .ok output⟩ : Executed) = x at h
    cases h with
    | alone _ =>
        obtain ⟨rfl, -⟩ := Executed.mk.inj hx
        simp
    | @loop config now items blocks outcome _ _ _ hiterated =>
        obtain ⟨rfl, houtcome⟩ := Executed.mk.inj hx
        cases outcome with
        | error e => cases houtcome
        | ok outputs =>
            obtain ⟨hblocks, houtputs, hall⟩ := hiterated.bodyRan hvisit
            intro r hr
            obtain ⟨block, hblock, hr⟩ := List.mem_flatten.mp hr
            obtain ⟨i, hi, rfl⟩ := List.mem_iff_getElem.mp hblock
            have hran := hall i items[i] blocks[i] outputs[i] (List.getElem?_eq_getElem _)
              (List.getElem?_eq_getElem _) (List.getElem?_eq_getElem _)
            exact hran.fresh r hr
    | parallel hparallel _ _ => rw [htype] at hparallel; cases hparallel
  · intro r hr
    obtain ⟨⟨inner, ending⟩, hv, hr⟩ := List.mem_flatMap.mp hr
    obtain ⟨target, last, hyields, rfl⟩ := hvisits _ hv
    exact (hvisit _ _ _ _ hyields).1.fresh r hr

theorem Arrived.noted (hvisit : Notes visit) (h : Arrived w visit node c ⟨results, .ok last⟩) :
    c.Noted results last ∧ node.id ∈ last.executed ∧ (node.id ∈ c.executed → results = []) := by
  generalize hv : (⟨results, .ok last⟩ : Visited) = v at h
  cases h with
  | skipped hold =>
      obtain ⟨rfl, hending⟩ := Visited.mk.inj hv
      obtain rfl := Except.ok.inj hending
      exact ⟨.nothing, Context.hasExecuted_eq_true.mp hold, fun _ => rfl⟩
  | failed => simp at hv
  | @went inner output startedAt millis v hnew hran hleft =>
      obtain ⟨rfl, hending⟩ := Visited.mk.inj hv
      obtain ⟨more, ending⟩ := v
      obtain rfl : Except.ok last = ending := hending
      have hnotMem := Context.hasExecuted_eq_false.mp hnew
      let r : NodeResult := ⟨node.id, node.type, .ok output, startedAt, millis⟩
      have hnode : c.Noted (inner ++ [r]) (c.withOutput node.id output) :=
        .node (hran.fresh hvisit) hnotMem rfl
      obtain ⟨hrest, -⟩ := hleft.noted hvisit
      obtain ⟨new, hexecuted, -⟩ := hrest.executed
      refine ⟨by simpa [r] using hnode.trans hrest, ?_, fun hold => absurd hold hnotMem⟩
      rw [hexecuted]
      exact List.mem_append_left _ (by simp [Context.withOutput])

theorem visit_notes (w : Walk H) (room : Nat) : Notes (w.visit room) := by
  induction room with
  | zero =>
      intro nodeId c results last h
      cases Proc.yields_done.mp h
  | succ room ih =>
      intro nodeId c results last h
      rw [visit_succ] at h
      cases hnode : w.workflow.node? nodeId with
      | none =>
          simp only [hnode] at h
          cases Proc.yields_done.mp h
      | some node =>
          simp only [hnode] at h
          obtain rfl := Definition.id_of_node? hnode
          exact (arrive_yields h).noted ih

/-- A loop that does not fail has a block of results and an output for each item.  The output is
that of the last node that ran for the item, and the item itself if none has run.  Where an edge
without a guard leads into the body, its target has run for each item just if it had not run before
the loop, whatever the context and the rest of the workflow are; and if all targets of edges into
the body had run before, none has run for any item, and the outputs are the items. -/
theorem runLoop_runs_fresh_body (w : Walk H) (room : Nat) (node : Node) (c : Context)
    (now : Time.Instant) {output : Json}
    (h : (w.runLoop (w.visit room) node c now).Yields ⟨results, .ok output⟩) :
    ∃ config items blocks outputs, node.read LoopConfig.decoder = .ok config ∧
      w.items node.id config c now = .ok items ∧ results = List.flatten blocks ∧
      output = .arr outputs ∧ blocks.length = items.length ∧ outputs.length = items.length ∧
      (∀ (i : Nat) item block output, items[i]? = some item → blocks[i]? = some block →
        outputs[i]? = some output →
          (match block.getLast? with
            | some r => r.outcome = .ok output
            | none => output = item) ∧
          ∀ e ∈ w.bodyEdges node, e.guard = none →
            ((∃ r ∈ block, r.nodeId = e.target ∧ r.success = true) ↔ e.target ∉ c.executed)) ∧
      ((∀ e ∈ w.bodyEdges node, e.target ∈ c.executed) →
        (∀ block ∈ blocks, block = []) ∧ outputs = items) := by
  rw [runLoop] at h
  cases hconfig : node.read LoopConfig.decoder with
  | error message => simp only [hconfig, Proc.yields_done] at h; cases h
  | ok config =>
      simp only [hconfig] at h
      cases hitems : w.items node.id config c now with
      | error e => simp only [hitems, Proc.yields_done] at h; cases h
      | ok items =>
          simp only [hitems] at h
          obtain ⟨blocks, outcome, hiterated, hx⟩ := iterate_yields h
          obtain ⟨rfl, houtcome⟩ := Executed.mk.inj hx
          cases outcome with
          | error e => cases houtcome
          | ok outputs =>
              obtain rfl := Except.ok.inj houtcome
              obtain ⟨hblocks, houtputs, hall⟩ := hiterated.bodyRan (visit_notes w room)
              refine ⟨config, items, blocks, outputs, rfl, hitems, rfl, rfl, hblocks, houtputs,
                fun i item block output hitem hblock ho => ?_, fun hold => ⟨?_, ?_⟩⟩
              · have hran := hall i item block output hitem hblock ho
                exact ⟨hran.output, fun e he hguard => hran.reached_iff he hguard⟩
              · intro block hblock
                obtain ⟨i, hi, rfl⟩ := List.mem_iff_getElem.mp hblock
                exact (hall i items[i] blocks[i] outputs[i] (List.getElem?_eq_getElem _)
                  (List.getElem?_eq_getElem _) (List.getElem?_eq_getElem _)).nothing hold
              · refine List.ext_getElem houtputs fun i hi hi' => ?_
                exact (hall i items[i] blocks[i] outputs[i] (List.getElem?_eq_getElem _)
                  (List.getElem?_eq_getElem _) (List.getElem?_eq_getElem _)).eq_item hold

/-- A path that runs the step in the body of a loop before it comes to the loop: what the loop has
for output is its items. -/
theorem looping_skips_body :
    let node (id : String) (type : NodeType) (config : Json) : Node := ⟨id, type, none, config⟩
    let edge (a b : String) (handle : Option String) : Edge := ⟨a, b, handle, none⟩
    let each := node "each" .loop (.obj [("collection", .str "trigger")])
    let d : Definition := .create ⟨0⟩ "revisiting" .manual
      [node "start" .trigger .null, node "step" .output .null, each]
      [edge "start" "step" none, edge "start" "each" none, edge "each" "step" (some bodyHandle)]
    let w : Walk Empty := ⟨d, (Engine.create [] [] .standard).adapter, 2⟩
    let now : Time.Instant := ⟨0, 0⟩
    let items : List Json := [.null, .null]
    let result (id : String) (type : NodeType) (output : Json) : NodeResult :=
      ⟨id, type, .ok output, now, elapsedMillis now now⟩
    let c := (loopingStart.withOutput "start" (.arr items)).withOutput "step" (.obj [])
    d.order = .ok ["start", "each", "step"] ∧
    (w.visit 3 "start" loopingStart).Yields
      ⟨[result "start" .trigger (.arr items), result "step" .output (.obj []),
        result "each" .loop (.arr items)], .ok (c.withOutput "each" (.arr items))⟩ ∧
    (∃ x, (w.runLoop (w.visit 1) each c now).Yields x ∧ x.outcome = .ok (.arr items)) ∧
    ∀ results output, (w.runLoop (w.visit 1) each c now).Yields ⟨results, .ok output⟩ →
      results = [] ∧ output = .arr items := by
  intro node edge each d w now items result c
  have horder : d.order = .ok ["start", "each", "step"] := by rfl
  have hvisit : (w.visit 3 "start" loopingStart).Yields
      ⟨[result "start" .trigger (.arr items), result "step" .output (.obj []),
        result "each" .loop (.arr items)], .ok (c.withOutput "each" (.arr items))⟩ := by
    -- The trigger, the step and the loop run one after another, and nothing runs for the items.
    refine Exists.intro now (Exists.intro false (Exists.intro now ?_))
    refine Exists.intro now (Exists.intro false (Exists.intro now ?_))
    refine Exists.intro now (Exists.intro false (Exists.intro now ?_))
    exact rfl
  refine ⟨horder, hvisit, ⟨⟨[], .ok (.arr items)⟩, rfl, rfl⟩, fun results output h => ?_⟩
  obtain ⟨config, items', blocks, outputs, hconfig, hitems, rfl, rfl, -, -, -, hskipped⟩ :=
    runLoop_runs_fresh_body w 1 each c now h
  obtain rfl : (⟨"trigger", "item", none⟩ : LoopConfig) = config := Except.ok.inj hconfig
  obtain rfl : items = items' := Except.ok.inj hitems
  have hold : ∀ e ∈ w.bodyEdges each, e.target ∈ c.executed := by decide
  obtain ⟨hblocks, houtputs⟩ := hskipped hold
  exact ⟨List.flatten_eq_nil_iff.mpr hblocks, by rw [houtputs]⟩

end Walk

end Workflow
