import Workflow.Proofs.Run.Invocation

/-!
# Records and results

A run leaves two accounts of the primitives that it has run: the records that the store was asked to
insert, and the results of the nodes.  They are written in different places, and the results of
parallel branches and of the items of a loop are collected before they are passed on.  Still nothing
is in one account only, but for primitives that failed before a handler was invoked: these have a
result and no record.

A history is recounted by results if the records in it tell the same as these.  The laws follow the
functions of a walk one by one; what is done in sequence or side by side is added up.
-/

namespace Workflow

open Proc

universe u

variable {H : Type} {β : Type} {id : Uuid}

/-! ### Two accounts -/

/-- The record of an execution that a call to the store asks to insert, whatever it is answered. -/
def StoreCall.audited (id : Uuid) : StoreCall β → Multiset NewAudit
  | .insertAudit record => if record.executionId = some id then {record} else 0
  | _ => 0

/-- The record of an execution that a call asks to insert. -/
def Call.audited (id : Uuid) (β : Type) : Call H β → β → Multiset NewAudit
  | .store c, _ => c.audited id
  | _, _ => 0

/-- What is noted of a call, as a multiset. -/
def Call.noted (β : Type) (c : Call H β) (reply : β) : Multiset Note := (c.note? reply).toList

/-- The nodes and the outputs of successful records. -/
def NewAudit.outputs (records : Multiset NewAudit) : Multiset (Option String × Option Json) :=
  (records.filter fun x => x.success = true).map fun x => (x.nodeId, x.output)

/-- The nodes of records that are not successful. -/
def NewAudit.failures (records : Multiset NewAudit) : Multiset (Option String) :=
  (records.filter fun x => x.success = false).map NewAudit.nodeId

/-- The nodes and the outputs of successful results of primitives. -/
def NodeResult.outputs (results : Multiset NodeResult) : Multiset (Option String × Option Json) :=
  (results.filter fun r => r.nodeType = .primitive ∧ r.success = true).map
    fun r => (some r.nodeId, r.outcome.toOption)

/-- The nodes of results of primitives that are not successful. -/
def NodeResult.failures (results : Multiset NodeResult) : Multiset (Option String) :=
  (results.filter fun r => r.nodeType = .primitive ∧ r.success = false).map fun r => some r.nodeId

/-- Records and results tell the same of the primitives that succeeded, and each record of one that
failed has a result of its own. -/
structure Tells (records : Multiset NewAudit) (results : List NodeResult) : Prop where
  outputs : NewAudit.outputs records = NodeResult.outputs results
  failures : NewAudit.failures records ≤ NodeResult.failures results

namespace Tells

variable {records records' : Multiset NewAudit} {results results' : List NodeResult}
  {r : NodeResult}

theorem nil : Tells 0 [] := ⟨rfl, le_refl _⟩

theorem add (h : Tells records results) (h' : Tells records' results') :
    Tells (records + records') (results ++ results') := by
  constructor
  · rw [NewAudit.outputs, NodeResult.outputs, ← Multiset.coe_add, Multiset.filter_add,
      Multiset.filter_add, Multiset.map_add, Multiset.map_add]
    exact congrArg₂ (· + ·) h.outputs h'.outputs
  · rw [NewAudit.failures, NodeResult.failures, ← Multiset.coe_add, Multiset.filter_add,
      Multiset.filter_add, Multiset.map_add, Multiset.map_add]
    exact add_le_add h.failures h'.failures

/-- Without a record, there may be the result of another node, or that of a primitive that failed.
-/
theorem of_unrecorded (h : r.nodeType = .primitive → r.success = false) : Tells 0 [r] := by
  constructor
  · have hnone : ¬(r.nodeType = .primitive ∧ r.success = true) := by
      rintro ⟨htype, hsuccess⟩
      rw [h htype] at hsuccess
      cases hsuccess
    rw [NodeResult.outputs, Multiset.coe_singleton, Multiset.filter_singleton, if_neg hnone]
    rfl
  · exact Multiset.zero_le _

theorem of_record {record : NewAudit} (htype : r.nodeType = .primitive)
    (hnode : record.nodeId = some r.nodeId) (hsuccess : record.success = r.success)
    (houtput : record.output = r.outcome.toOption) : Tells {record} [r] := by
  constructor
  · rw [NewAudit.outputs, NodeResult.outputs, Multiset.coe_singleton, Multiset.filter_singleton,
      Multiset.filter_singleton, hsuccess]
    by_cases h : r.success = true
    · rw [if_pos h, if_pos ⟨htype, h⟩, Multiset.map_singleton, Multiset.map_singleton, hnode,
        houtput]
    · rw [if_neg h, if_neg fun hr => h hr.2]
      rfl
  · rw [NewAudit.failures, NodeResult.failures, Multiset.coe_singleton, Multiset.filter_singleton,
      Multiset.filter_singleton, hsuccess]
    by_cases h : r.success = false
    · rw [if_pos h, if_pos ⟨htype, h⟩, Multiset.map_singleton, Multiset.map_singleton, hnode]
    · rw [if_neg h]
      exact Multiset.zero_le _

end Tells

/-! ### Histories -/

/-- The records of a history tell the same as some results, and its calls have left some notes. -/
structure Told (id : Uuid) (h : History (Call H)) (results : List NodeResult)
    (notes : Multiset Note) : Prop where
  records : Tells (h.kept (Call.audited id)) results
  noted : h.kept Call.noted = notes

namespace Told

variable {h h' : History (Call H)} {results results' : List NodeResult}
  {notes notes' : Multiset Note}

theorem nil : Told id (0 : History (Call H)) [] 0 := ⟨.nil, rfl⟩

theorem add (hh : Told id h results notes) (hh' : Told id h' results' notes') :
    Told id (h + h') (results ++ results') (notes + notes') := by
  constructor
  · rw [History.kept_add]
    exact hh.records.add hh'.records
  · rw [History.kept_add, hh.noted, hh'.noted]

theorem called {c : Call H β} {reply : β} (haudited : Call.audited id β c reply = 0) :
    Told id {.called c reply} [] (c.note? reply).toList := by
  constructor
  · rw [History.kept_called, haudited]
    exact .nil
  · exact History.kept_called ..

/-- A history without records and notes may come before another. -/
theorem after (hh' : Told id h' results notes) (hh : Told id h [] 0) :
    Told id (h + h') results notes := by
  have hboth := hh.add hh'
  rwa [zero_add] at hboth

/-- A call that inserts no record adds its note to what comes after it. -/
theorem asked {c : Call H β} (reply : β) (haudited : Call.audited id β c reply = 0)
    (hh : Told id h results notes) :
    Told id ({.called c reply} + h) results ((c.note? reply).toList + notes) :=
  (called haudited).add hh

end Told

/-- The results recount a history that has made no call of which something is noted. -/
abbrev Recounts (id : Uuid) (h : History (Call H)) (results : List NodeResult) : Prop :=
  Told id h results 0

namespace Recounts

variable {h h' : History (Call H)} {results results' : List NodeResult} {r : NodeResult}

theorem nil : Recounts id (0 : History (Call H)) [] := Told.nil

theorem add (hh : Recounts id h results) (hh' : Recounts id h' results') :
    Recounts id (h + h') (results ++ results') := Told.add hh hh'

theorem before (hh : Recounts id h results) (hh' : Recounts id h' []) :
    Recounts id (h + h') results := by
  have hboth := hh.add hh'
  rwa [List.append_nil] at hboth

theorem called {c : Call H β} {reply : β} (haudited : Call.audited id β c reply = 0)
    (hnote : c.note? reply = none) : Recounts id {.called c reply} [] := by
  have htold := Told.called haudited
  rwa [hnote] at htold

theorem clock (now : Time.Instant) : Recounts id ({.called .clock now} : History (Call H)) [] :=
  called rfl rfl

theorem isStopped (x : Uuid) (stopped : Bool) :
    Recounts id ({.called (.here (.isStopped x)) stopped} : History (Call H)) [] := called rfl rfl

theorem ran (body : Proc (Call H) β) (ending : Ending β) : Recounts id {.ran body ending} [] := by
  refine ⟨?_, ?_⟩
  · rw [History.kept_ran]
    exact .nil
  · rw [History.kept_ran]

theorem asked {x : Option Uuid} {asked : History (Call H)}
    (hasked : History.Asks (x.map fun id => .here (.isStopped id)) asked) :
    Recounts id asked [] := by
  refine ⟨?_, ?_⟩
  · rw [hasked.kept_eq]
    · exact .nil
    · intro c reply hc
      obtain ⟨_, -, rfl⟩ := Option.map_eq_some_iff.mp hc
      rfl
  · apply hasked.kept_eq
    intro c reply hc
    obtain ⟨_, -, rfl⟩ := Option.map_eq_some_iff.mp hc
    rfl

/-- A node without a record adds its result, unless it is a primitive that succeeded. -/
theorem result (hh : Recounts id h results) (hr : r.nodeType = .primitive → r.success = false) :
    Recounts id h (results ++ [r]) := by
  refine ⟨?_, hh.noted⟩
  rw [← add_zero (h.kept _)]
  exact hh.records.add (.of_unrecorded hr)

end Recounts

/-! ### Primitives -/

namespace Adapter

variable {a : Adapter H} {reference : PrimitiveRef} {h : History (Call H)}

theorem Finds.recounts {resolved : Except PrimitiveError Primitive}
    (hfinds : a.Finds reference h resolved) : Recounts id h [] := by
  have hcached : ∀ found, Recounts id
      ({.called (.here reference.cached) found} : History (Call H)) [] := by
    intro found
    cases reference <;> exact .called rfl rfl
  have hstore : ∀ found, Recounts id
      ({.called (.store reference.find) found} : History (Call H)) [] := by
    intro found
    cases reference <;> exact .called rfl rfl
  cases hfinds with
  | cached p => exact hcached _
  | stored _ => exact (hcached _).add ((hstore _).add (.called rfl rfl))
  | undecodable _ => exact (hcached _).add (hstore _)
  | missing => exact (hcached _).add (hstore _)
  | failed e => exact (hcached _).add (hstore _)

/-- What is done in a call for a primitive is recounted by the result of its node. -/
theorem execute_recounts {input : Json} {site : CallSite} {outcome : Except PrimitiveError Json}
    {r : NodeResult} (hdoes : (a.execute reference input site).Does outcome h)
    (hsite : site.executionId = some id) (hnode : site.nodeId = some r.nodeId)
    (htype : r.nodeType = .primitive) (houtcome : r.outcome.toOption = outcome.toOption) :
    Recounts id h [r] := by
  have hsuccess : r.success = outcome.isOk := by
    rw [NodeResult.success]
    cases hr : r.outcome <;> cases outcome <;>
      simp_all [Except.toOption, Except.isOk, Except.toBool]
  obtain ⟨resolved, looked, rest, hresolved, hrest, rfl⟩ := does_bind.mp hdoes
  refine Told.after ?_ (finds_of_resolve hresolved).recounts
  have hrefused : ∀ e, (.done (.error e) : Proc (Call H) (Except PrimitiveError Json)).Does outcome
      rest → Recounts id rest [r] := by
    rintro e ⟨rfl, rfl⟩
    exact Recounts.nil.result fun _ => hsuccess
  cases resolved with
  | error e => exact hrefused e hrest
  | ok p =>
      cases hgate : a.gate p input with
      | error e =>
          simp only [hgate] at hrest
          exact hrefused e hrest
      | ok handler =>
          simp only [hgate] at hrest
          obtain ⟨ending, startedAt, finishedAt, asked, reply, -, hasked, rfl, rfl⟩ :=
            invoke_does.mp hrest
          have hhandled : Recounts id (handled a p handler input ending startedAt finishedAt asked)
              [] := (Recounts.clock _).add (((Recounts.ran _ _).add (.asked hasked)).add (.clock _))
          refine Told.after ⟨?_, by rw [History.kept_called]; rfl⟩ hhandled
          have hrecord := describes_record p input site startedAt finishedAt
            (Adapter.outcome p ending)
          rw [History.kept_called, Call.audited, StoreCall.audited,
            if_pos (hrecord.executionId.trans hsite)]
          exact .of_record htype (hrecord.nodeId.trans hnode) (hrecord.success.trans hsuccess.symm)
            houtcome.symm

end Adapter

/-! ### Walks -/

namespace Walk

/-- What is done on a path is recounted by the results that the path adds to those before, and the
path stays with its execution. -/
def Adds (id : Uuid) (before : List NodeResult) (v : Visited) (h : History (Call H)) : Prop :=
  v.context.executionId = id ∧ ∃ more, v.results = before ++ more ∧ Recounts id h more

/-- A way to visit nodes whose results recount what is done. -/
def Recounting (id : Uuid) (visit : Visitor H) : Prop :=
  ∀ nodeId c v h, c.executionId = id → (visit nodeId c).Does v h → Adds id [] v h

/-- The result of a node, by what came of executing it. -/
def resultOf (node : Node) (outcome : Except RunError Json) (startedAt : Time.Instant)
    (millis : Nat) : NodeResult :=
  ⟨node.id, node.type, outcome.mapError RunError.message, startedAt, millis⟩

variable {w : Walk H} {visit : Visitor H} {node : Node} {c : Context} {h : History (Call H)}
  {now : Time.Instant}

theorem Adds.more {before middle : List NodeResult} {v : Visited} {h' : History (Call H)}
    (hh : Recounts id h middle) (hv : Adds id (before ++ middle) v h') :
    Adds id before v (h + h') := by
  obtain ⟨hc, more, hresults, hmore⟩ := hv
  exact ⟨hc, middle ++ more, by rw [hresults, List.append_assoc], hh.add hmore⟩

theorem Adds.after {before : List NodeResult} {v : Visited} {h' : History (Call H)}
    (hv : Adds id before v h') (hh : Recounts id h []) : Adds id before v (h + h') := by
  rw [← List.append_nil before] at hv
  exact .more hh hv

theorem guardHolds_recounts {e : Edge} {holds : Bool} (hdoes : (guardHolds e c).Does holds h) :
    Recounts id h [] := by
  rw [guardHolds] at hdoes
  cases hguard : e.guard with
  | none =>
      rw [hguard] at hdoes
      rw [hdoes.2]
      exact .nil
  | some guard =>
      rw [hguard] at hdoes
      obtain ⟨now, _, ⟨-, rfl⟩, rfl⟩ := does_ask.mp hdoes
      exact (Recounts.clock now).before .nil

theorem follows_recounts {output : Json} {e : Edge} {chosen : Bool}
    (hdoes : (follows node output e c).Does chosen h) : Recounts id h [] := by
  rw [follows] at hdoes
  split at hdoes
  · exact guardHolds_recounts hdoes
  · rw [hdoes.2]
    exact .nil

theorem follow_adds (hvisit : Recounting id visit) {choose : Edge → Context → Proc (Call H) Bool}
    (hchoose : ∀ e c chosen h, (choose e c).Does chosen h → Recounts id h []) {edges : List Edge}
    {before : List NodeResult} {v : Visited} (hc : c.executionId = id)
    (hdoes : (follow visit choose edges c before).Does v h) : Adds id before v h := by
  induction edges generalizing c before h with
  | nil =>
      obtain ⟨rfl, rfl⟩ := hdoes
      exact ⟨hc, [], (List.append_nil _).symm, .nil⟩
  | cons e rest ih =>
      rw [follow] at hdoes
      obtain ⟨chosen, asked, _, hasked, hnext, rfl⟩ := does_bind.mp hdoes
      refine Adds.after ?_ (hchoose e c chosen asked hasked)
      cases chosen with
      | false => exact ih hc hnext
      | true =>
          obtain ⟨visited, went, _, hwent, hrest, rfl⟩ := does_bind.mp hnext
          obtain ⟨hvisited, middle, hmiddle, hrecounts⟩ := hvisit _ _ _ _ hc hwent
          rw [List.nil_append] at hmiddle
          refine Adds.more hrecounts ?_
          obtain ⟨results, failure | last⟩ := visited
          · obtain ⟨rfl, rfl⟩ := hrest
            exact ⟨hvisited, [], by rw [List.append_nil, ← hmiddle], .nil⟩
          · rw [← hmiddle]
            exact ih hvisited hrest

/-! ### Nodes -/

theorem iterate_recounts (hvisit : Recounting id visit) {nodeId : String} {config : LoopConfig}
    {body : List Edge} {index : Nat} {items outputs : List Json} {blocks : List (List NodeResult)}
    {x : Executed} (hc : c.executionId = id)
    (hdoes : (iterate visit nodeId config body c index items blocks outputs).Does x h) :
    ∃ more, x.results = blocks.reverse.flatten ++ more ∧ Recounts id h more := by
  induction items generalizing index blocks outputs h with
  | nil =>
      obtain ⟨rfl, rfl⟩ := hdoes
      exact ⟨[], (List.append_nil _).symm, .nil⟩
  | cons item rest ih =>
      rw [iterate] at hdoes
      obtain ⟨visited, first, _, hfirst, hrest, rfl⟩ := does_bind.mp hdoes
      have hitem :
          (c.withItem config.itemVariable item config.indexVariable index).executionId = id := by
        cases config.indexVariable <;> exact hc
      obtain ⟨-, block, hblock, hrecounts⟩ :=
        follow_adds hvisit (fun _ _ _ _ hg => guardHolds_recounts hg) hitem hfirst
      rw [List.nil_append] at hblock
      have hblocks :
          (visited.results :: blocks).reverse.flatten = blocks.reverse.flatten ++ block := by
        simp [hblock]
      cases hending : visited.ending with
      | error failure =>
          simp only [hending] at hrest
          obtain ⟨rfl, rfl⟩ := hrest
          exact ⟨block, hblocks, hrecounts.before .nil⟩
      | ok last =>
          simp only [hending] at hrest
          obtain ⟨more, hmore, hrecounts'⟩ := ih hrest
          refine ⟨block ++ more, ?_, hrecounts.add hrecounts'⟩
          rw [hmore, hblocks, List.append_assoc]

theorem runLoop_recounts (hvisit : Recounting id visit) {x : Executed} (hc : c.executionId = id)
    (hdoes : (w.runLoop visit node c now).Does x h) : Recounts id h x.results := by
  have hfail : ∀ e, (.done ⟨[], .error e⟩ : Proc (Call H) Executed).Does x h →
      Recounts id h x.results := by
    rintro e ⟨rfl, rfl⟩
    exact .nil
  rw [runLoop] at hdoes
  cases hread : node.read LoopConfig.decoder with
  | error message =>
      rw [hread] at hdoes
      exact hfail _ hdoes
  | ok config =>
      simp only [hread] at hdoes
      cases hitems : w.items node.id config c now with
      | error e =>
          rw [hitems] at hdoes
          exact hfail _ hdoes
      | ok items =>
          rw [hitems] at hdoes
          obtain ⟨more, hmore, hrecounts⟩ := iterate_recounts hvisit hc hdoes
          rwa [hmore]

theorem chosen_recounts {edges branches : List Edge}
    (hdoes : (chosen c edges : Proc (Call H) (List Edge)).Does branches h) : Recounts id h [] := by
  induction edges generalizing branches h with
  | nil =>
      rw [hdoes.2]
      exact .nil
  | cons e rest ih =>
      rw [chosen] at hdoes
      obtain ⟨holds, asked, _, hasked, hnext, rfl⟩ := does_bind.mp hdoes
      obtain ⟨more, others, _, hothers, ⟨-, rfl⟩, rfl⟩ := does_bind.mp hnext
      exact (guardHolds_recounts hasked).add ((ih hothers).before .nil)

/-- What branches do side by side is recounted by all their results. -/
theorem branches_recount (hvisit : Recounting id visit) (hc : c.executionId = id)
    {branches : List Edge} {visits : List Visited}
    (heach : EachDoes (branches.map fun e => visit e.target c) visits h) :
    Recounts id h (visits.flatMap Visited.results) := by
  induction branches generalizing visits h with
  | nil =>
      cases heach
      exact .nil
  | cons e rest ih =>
      cases heach with
      | cons hfirst hothers =>
          obtain ⟨-, more, hmore, hrecounts⟩ := hvisit _ _ _ _ hc hfirst
          rw [List.nil_append] at hmore
          rw [List.flatMap_cons, hmore]
          exact hrecounts.add (ih hothers)

theorem runParallel_recounts (hvisit : Recounting id visit) {x : Executed} (hc : c.executionId = id)
    (hdoes : (w.runParallel visit node c).Does x h) : Recounts id h x.results := by
  rw [runParallel] at hdoes
  obtain ⟨branches, asked, _, hasked, hall, rfl⟩ := does_bind.mp hdoes
  obtain ⟨visits, walked, _, hwalked, ⟨rfl, rfl⟩, rfl⟩ := does_bind.mp hall
  rw [add_zero]
  exact (branches_recount hvisit hc (sideBySide_does hwalked)).after (chosen_recounts hasked)

theorem runDelay_recounts {outcome : Except RunError Json}
    (hdoes : (runDelay node c : Proc (Call H) (Except RunError Json)).Does outcome h) :
    Recounts id h [] := by
  have hfail : ∀ e, (.done (.error e) : Proc (Call H) (Except RunError Json)).Does outcome h →
      Recounts id h [] := by
    rintro e ⟨-, rfl⟩
    exact .nil
  rw [runDelay] at hdoes
  cases hread : node.read DelayConfig.decoder with
  | error message =>
      rw [hread] at hdoes
      exact hfail _ hdoes
  | ok config =>
      simp only [hread] at hdoes
      cases hnanos : config.nanos? with
      | none =>
          rw [hnanos] at hdoes
          exact hfail _ hdoes
      | some nanos =>
          rw [hnanos] at hdoes
          obtain ⟨elapsed, asked, _, ⟨-, hasked⟩, ⟨-, rfl⟩, rfl⟩ := hdoes
          exact (Recounts.asked (x := some c.executionId) hasked).before .nil

theorem runPrimitive_recounts {outcome : Except RunError Json} (htype : node.type = .primitive)
    (hc : c.executionId = id) (hdoes : (w.runPrimitive node c now).Does outcome h)
    (startedAt : Time.Instant) (millis : Nat) :
    Recounts id h [resultOf node outcome startedAt millis] := by
  have hfail : ∀ e, (.done (.error e) : Proc (Call H) (Except RunError Json)).Does outcome h →
      Recounts id h [resultOf node outcome startedAt millis] := by
    rintro e ⟨rfl, rfl⟩
    exact Recounts.nil.result fun _ => rfl
  rw [runPrimitive] at hdoes
  cases hread : node.read PrimitiveConfig.decoder with
  | error message =>
      rw [hread] at hdoes
      exact hfail _ hdoes
  | ok config =>
      simp only [hread] at hdoes
      cases href : primitiveRef node.id config with
      | error e =>
          rw [href] at hdoes
          exact hfail _ hdoes
      | ok reference =>
          simp only [href] at hdoes
          obtain ⟨result, called, _, hcalled, ⟨rfl, rfl⟩, rfl⟩ := does_bind.mp hdoes
          rw [add_zero]
          refine Adapter.execute_recounts hcalled (by rw [hc]) rfl htype ?_
          obtain e | output := result
          · cases e <;> rfl
          · rfl

theorem alone_does {p : Proc (Call H) (Except RunError Json)} {x : Executed}
    (hdoes : (alone p).Does x h) : x.results = [] ∧ p.Does x.outcome h := by
  obtain ⟨outcome, done, _, hdone, ⟨rfl, rfl⟩, rfl⟩ := does_bind.mp hdoes
  rw [add_zero]
  exact ⟨rfl, hdone⟩

/-- What is done when a node is executed is recounted by the results of the nodes inside it and its
own. -/
theorem execute_recounts (hvisit : Recounting id visit) {x : Executed} (hc : c.executionId = id)
    (hdoes : (w.execute visit node c now).Does x h) (startedAt : Time.Instant) (millis : Nat) :
    Recounts id h (x.results ++ [resultOf node x.outcome startedAt millis]) := by
  by_cases htype : node.type = .primitive
  · rw [execute, htype] at hdoes
    obtain ⟨hresults, hdoes⟩ := alone_does hdoes
    rw [hresults]
    exact runPrimitive_recounts htype hc hdoes startedAt millis
  · refine Recounts.result ?_ fun hprimitive => absurd hprimitive htype
    cases hkind : node.type with
    | primitive => exact absurd hkind htype
    | loop =>
        rw [execute, hkind] at hdoes
        exact runLoop_recounts hvisit hc hdoes
    | parallel =>
        rw [execute, hkind] at hdoes
        exact runParallel_recounts hvisit hc hdoes
    | delay =>
        rw [execute, hkind] at hdoes
        obtain ⟨hresults, hdoes⟩ := alone_does hdoes
        rw [hresults]
        exact runDelay_recounts hdoes
    | _ =>
        rw [execute, hkind] at hdoes
        obtain ⟨rfl, rfl⟩ := hdoes
        exact .nil

/-- What is done from a node on is recounted by the results, if those of the node itself recount
what was done for it. -/
theorem proceed_adds (hvisit : Recounting id visit) {startedAt finishedAt : Time.Instant}
    {x : Executed} {v : Visited} {h' : History (Call H)} (hc : c.executionId = id)
    (hx : ∀ startedAt millis,
      Recounts id h (x.results ++ [resultOf node x.outcome startedAt millis]))
    (hdoes : (w.proceed visit node c startedAt finishedAt x).Does v h') :
    Adds id [] v (h + h') := by
  refine Adds.more (hx startedAt (elapsedMillis startedAt finishedAt)) ?_
  rw [proceed] at hdoes
  obtain ⟨results, e | output⟩ := x
  · obtain ⟨rfl, rfl⟩ := hdoes
    exact ⟨hc, [], by simp [resultOf, Except.mapError], .nil⟩
  · have hc' : (c.withOutput node.id output).executionId = id := hc
    exact follow_adds hvisit (fun _ _ _ _ hf => follows_recounts hf) hc' hdoes

/-- The results of a visit recount what is done in it, whatever is inside. -/
theorem visit_recounts (w : Walk H) (room : Nat) : Recounting id (w.visit room) := by
  induction room with
  | zero =>
      rintro nodeId c v h hc ⟨rfl, rfl⟩
      exact ⟨hc, [], rfl, .nil⟩
  | succ room ih =>
      intro nodeId c v h hc hdoes
      rw [visit] at hdoes
      cases hnode : w.workflow.node? nodeId with
      | none =>
          rw [hnode] at hdoes
          obtain ⟨rfl, rfl⟩ := hdoes
          exact ⟨hc, [], rfl, .nil⟩
      | some node =>
          simp only [hnode] at hdoes
          by_cases hran : c.hasExecuted nodeId = true
          · rw [if_pos hran] at hdoes
            obtain ⟨rfl, rfl⟩ := hdoes
            exact ⟨hc, [], rfl, .nil⟩
          · rw [if_neg hran] at hdoes
            obtain ⟨startedAt, _, hpolled, rfl⟩ := does_ask.mp hdoes
            obtain ⟨stopped, _, hnext, rfl⟩ := does_ask.mp hpolled
            refine Adds.after (Adds.after ?_ (.isStopped _ stopped)) (.clock startedAt)
            cases stopped with
            | true =>
                let x : Executed := ⟨[], .error .cancelled⟩
                have hnone : ∀ startedAt millis, Recounts id (0 : History (Call H))
                    (x.results ++ [resultOf node x.outcome startedAt millis]) :=
                  fun _ _ => Recounts.nil.result fun _ => rfl
                have hadds := proceed_adds (w := w) ih hc hnone hnext
                rwa [zero_add] at hadds
            | false =>
                obtain ⟨x, ran, _, hran, hrest, rfl⟩ := does_bind.mp hnext
                obtain ⟨finishedAt, _, hproceed, rfl⟩ := does_ask.mp hrest
                have hclocked : ∀ startedAt millis, Recounts id (ran + {.called .clock finishedAt})
                    (x.results ++ [resultOf node x.outcome startedAt millis]) :=
                  fun startedAt millis =>
                    (execute_recounts ih hc hran startedAt millis).before (.clock _)
                rw [← add_assoc]
                exact proceed_adds ih hc hclocked hproceed

theorem start_recounts {v : Visited} (hc : c.executionId = id) (hdoes : (w.start c).Does v h) :
    v.context.executionId = id ∧ Recounts id h v.results := by
  have hadds : Adds id [] v h := by
    rw [start] at hdoes
    split at hdoes
    · obtain ⟨rfl, rfl⟩ := hdoes
      exact ⟨hc, [], rfl, .nil⟩
    · split at hdoes
      · obtain ⟨rfl, rfl⟩ := hdoes
        exact ⟨hc, [], rfl, .nil⟩
      · exact visit_recounts w _ _ _ _ _ hc hdoes
  obtain ⟨hcontext, more, hmore, hrecounts⟩ := hadds
  rw [List.nil_append] at hmore
  exact ⟨hcontext, hmore ▸ hrecounts⟩

end Walk

/-! ### Runs -/

/-- A note is that the end of an execution was ordered. -/
def Note.IsOrder : Note → Prop
  | .finished _ _ _ => True
  | _ => False

namespace Engine

variable {engine : Engine H} {d : Definition} {c : Context} {h : History (Call H)} {o : Outcome}
  {startedAt : Time.Instant}

/-- A run that has walked ordered an end of its execution and was answered, and its outcome has the
error of the end that it ordered. -/
structure Ordered (o : Outcome) (f : Finish) (applied : Bool) : Prop where
  own : f.error = none ∨ ∃ e : RunError, f.error = some e.message
  status : applied = true → o.status = f.status
  error : o.error = if o.status = .completed then none else f.error

/-- How a run has come to its outcome: its row was read, and had ended before; or the run has
walked, and ordered an end of its execution. -/
inductive Comes (id : Uuid) (o : Outcome) : Multiset Note → Prop where
  | read {row : ExecutionRow} : row.state = .ok o.status → o.status.isTerminal = true →
      o.error = row.error → Comes id o {.found id (.ok (some row))}
  | walked {reply : Except StoreError (Option ExecutionRow)} {f : Finish} {applied : Bool}
      {rest : Multiset Note} : Ordered o f applied → (∀ n ∈ rest, ¬n.IsOrder) →
        Comes id o ({.found id reply} + ({.finished id f (.ok applied)} + rest))

theorem settled_does (id : Uuid) {x : Uuid} {applied : Bool} {status : ExecutionStatus}
    {state : Except RunError ExecutionStatus}
    (hdoes : (settled x applied status : Proc (Call H) _).Does state h) :
    (applied = true → state = .ok status) ∧
      ∃ notes, Told id h [] notes ∧ ∀ n ∈ notes, ¬n.IsOrder := by
  rw [settled] at hdoes
  cases applied with
  | true =>
      obtain ⟨rfl, rfl⟩ := hdoes
      exact ⟨fun _ => rfl, 0, .nil, by simp⟩
  | false =>
      obtain ⟨found, _, ⟨-, rfl⟩, rfl⟩ := does_ask.mp hdoes
      refine ⟨fun happlied => (by cases happlied), _, Told.nil.asked found rfl, ?_⟩
      simp [Call.note?, StoreCall.note?, Note.IsOrder]

theorem stamp_does (id : Uuid) {wid : Uuid} {applied : Bool} {status : ExecutionStatus}
    (hdoes : (stamp wid applied status : Proc (Call H) Unit).Does () h) :
    ∃ notes, Told id h [] notes ∧ ∀ n ∈ notes, ¬n.IsOrder := by
  rw [stamp] at hdoes
  split at hdoes
  · obtain ⟨now, _, htouch, rfl⟩ := does_ask.mp hdoes
    obtain ⟨reply, _, ⟨-, rfl⟩, rfl⟩ := does_ask.mp htouch
    refine ⟨_, (Told.nil.asked reply rfl).after (Recounts.clock now), ?_⟩
    simp [Call.note?, StoreCall.note?, Note.IsOrder]
  · rw [hdoes.2]
    exact ⟨0, .nil, by simp⟩

/-- A run that has walked orders the end of its execution once, and comes to its outcome by the
answer. -/
theorem conclude_does (id : Uuid) {visited : Visited} {stopped : Bool}
    (hdoes : (conclude visited stopped startedAt : Proc (Call H) _).Does (.ok o) h) :
    o.nodeResults = visited.results ∧ o.executionId = visited.context.executionId ∧
    ∃ f applied rest, Ordered o f applied ∧ (∀ n ∈ rest, ¬n.IsOrder) ∧
      Told id h [] ({.finished o.executionId f (.ok applied)} + rest) := by
  obtain ⟨finished, _, hsettled, rfl⟩ := does_ask.mp hdoes
  cases finished with
  | error e => cases hsettled.1
  | ok applied =>
      obtain ⟨state, settling, _, hstate, hstamped, rfl⟩ := does_bind.mp hsettled
      obtain ⟨happlied, notes, hsettling, hnotes⟩ := settled_does id hstate
      cases state with
      | error e => cases hstamped.1
      | ok status =>
          obtain ⟨_, stamping, _, hstamp, hreport, rfl⟩ := does_bind.mp hstamped
          obtain ⟨notes', hstamping, hnotes'⟩ := stamp_does id hstamp
          obtain ⟨finishedAt, _, ⟨ho, rfl⟩, rfl⟩ := does_ask.mp hreport
          obtain rfl := Except.ok.inj ho
          have hown : (visited.finish stopped).error = none ∨
              ∃ e : RunError, (visited.finish stopped).error = some e.message := by
            rw [Visited.finish]
            split
            · exact .inl rfl
            · next failure _ => exact .inr ⟨failure.error, rfl⟩
          refine ⟨rfl, rfl, visited.finish stopped, applied, notes + notes',
            ⟨hown, fun h => Except.ok.inj (happlied h), rfl⟩, fun n hn => ?_, ?_⟩
          · exact (Multiset.mem_add.mp hn).elim (hnotes n) (hnotes' n)
          · have hrest := hsettling.add (hstamping.add (Told.nil.after (Recounts.clock finishedAt)))
            rw [add_zero notes'] at hrest
            exact hrest.asked _ rfl

theorem walk_does (hc : c.executionId = id) (hdoes : (engine.walk d c startedAt).Does (.ok o) h) :
    o.executionId = id ∧ ∃ f applied rest, Ordered o f applied ∧ (∀ n ∈ rest, ¬n.IsOrder) ∧
      Told id h o.nodeResults ({.finished id f (.ok applied)} + rest) := by
  obtain ⟨visited, walked, _, hwalked, hrest, rfl⟩ := does_bind.mp hdoes
  obtain ⟨hcontext, hrecounts⟩ := Walk.start_recounts hc hwalked
  -- Whether the run was told to stop is asked only after a failure.
  obtain ⟨stopped, asked, concluded, hasked, hconcluded, rfl⟩ : ∃ stopped asked concluded,
      Recounts id asked [] ∧ (conclude visited stopped startedAt).Does (.ok o) concluded ∧
        _ = asked + concluded := by
    cases hending : visited.ending with
    | ok last =>
        simp only [hending] at hrest
        exact ⟨false, 0, _, .nil, hrest, (zero_add _).symm⟩
    | error failure =>
        simp only [hending] at hrest
        obtain ⟨stopped, concluded, hconcluded, rfl⟩ := does_ask.mp hrest
        exact ⟨stopped, _, concluded, .isStopped _ stopped, hconcluded, rfl⟩
  obtain ⟨hresults, hid, f, applied, rest, hf, hquiet, htold⟩ := conclude_does id hconcluded
  rw [hcontext] at hid
  refine ⟨hid, f, applied, rest, hf, hquiet, ?_⟩
  have hboth := Told.add hrecounts (htold.after hasked)
  rwa [zero_add, List.append_nil, ← hresults, hid] at hboth

/-- A run that is registered reads its row, and then it comes to its outcome. -/
theorem perform_does (hc : c.executionId = id) (hdoes : (engine.perform d c).Does (.ok o) h) :
    o.executionId = id ∧ ∃ notes, Comes id o notes ∧ Told id h o.nodeResults notes := by
  obtain ⟨startedAt, _, hread, rfl⟩ := does_ask.mp hdoes
  obtain ⟨reply, rest, hrest, rfl⟩ := does_ask.mp hread
  rw [hc]
  have hfound : ∀ {results notes}, Told id rest results notes → Told id
      (({.called .clock startedAt} : History (Call H)) +
        ({.called (.store (.getExecution id)) reply} + rest)) results ({.found id reply} + notes) :=
    fun htold => (htold.asked reply rfl).after (Recounts.clock startedAt)
  have hwalk : (engine.walk d c startedAt).Does (.ok o) rest → o.executionId = id ∧
      ∃ notes, Comes id o notes ∧ Told id (({.called .clock startedAt} : History (Call H)) +
        ({.called (.store (.getExecution id)) reply} + rest)) o.nodeResults notes := by
    intro hwalked
    obtain ⟨hid, f, applied, more, hf, hquiet, htold⟩ := walk_does hc hwalked
    exact ⟨hid, _, .walked hf hquiet, hfound htold⟩
  obtain e | _ | row := reply
  · cases hrest.1
  · exact hwalk hrest
  · cases hstate : row.state with
    | error e =>
        simp only [hstate] at hrest
        cases hrest.1
    | ok status =>
        simp only [hstate] at hrest
        by_cases hterm : status.isTerminal = true
        · rw [if_pos hterm] at hrest
          obtain ⟨finishedAt, _, ⟨ho, rfl⟩, rfl⟩ := does_ask.mp hrest
          obtain rfl := Except.ok.inj ho
          refine ⟨hc, _, .read hstate hterm rfl, ?_⟩
          exact hfound (Told.nil.after (Recounts.clock finishedAt))
        · rw [if_neg hterm] at hrest
          exact hwalk hrest

/-- A run with an outcome has created an execution, and what it has done is recounted by the
outcome. -/
theorem run_does {request : RunRequest} (hdoes : (engine.run d request).Does (.ok o) h) :
    ∃ row notes, o.executionId = row.id ∧ Comes row.id o notes ∧
      Told row.id h o.nodeResults
        ({.created (.ok row)} + ({.registered row.id} + (notes + {.unregistered row.id}))) := by
  obtain ⟨created, _, hbegun, rfl⟩ := does_ask.mp hdoes
  cases created with
  | error e => cases hbegun.1
  | ok row =>
      obtain ⟨_, _, howned, rfl⟩ := does_ask.mp hbegun
      obtain ⟨ended, closed, _, hended, hreport, rfl⟩ := howned
      cases ended with
      | error message =>
          obtain ⟨finished, _, ⟨hbroken, -⟩, -⟩ := does_ask.mp hreport
          cases finished <;> cases hbroken
      | ok report =>
          obtain ⟨rfl, rfl⟩ := hreport
          obtain ⟨ended, performed, _, hperformed, hclosed, rfl⟩ := hended
          obtain ⟨_, _, hlast, rfl⟩ := does_ask.mp hclosed
          cases ended with
          | error message => exact hlast.elim
          | ok report =>
              obtain ⟨rfl, rfl⟩ := hlast
              obtain ⟨hid, notes, hcomes, htold⟩ := perform_does rfl hperformed
              refine ⟨row, notes, hid, hcomes, ?_⟩
              rw [add_zero, add_zero]
              have hunregistered : Told row.id
                  ({.called (.here (.unregister row.id)) ()} : History (Call H)) []
                  {.unregistered row.id} := .called rfl
              have hclosing := htold.add hunregistered
              rw [List.append_nil] at hclosing
              exact (hclosing.asked () rfl).asked _ rfl

end Engine

/-- The audit log and the results tell the same.  Take any store in which each record that a run
asks to insert for an execution becomes a row, and in which nobody else makes rows of this
execution.  If there are none before a run, and the run comes to an outcome for this execution, then
whatever the workflow is, whatever the handlers do and whenever the run is told to stop, the
successful rows and the successful results of primitives have the same nodes and outputs, as often
each; and the rows that are not successful have the nodes of different results of primitives that
are not successful. -/
theorem outcome_tells_audits {σ : Type u} {ρ : Type}
    {A : Role → (β : Type) → Call H β → σ → β → σ → Prop} {opens : σ → Proc (Call H) ρ → Prop}
    (engine : Engine H) (d : Definition) (request : RunRequest) {rows : σ → Multiset NewAudit}
    (hrows : Tallies A (Call.audited id) rows) {tasks : List (Proc (Call H) Unit)}
    {requests : List (Proc (Call H) ρ)} {s : σ} (hnone : rows s = 0)
    {b : Pool (Call H) σ (Except RunError Outcome) ρ}
    (hreach : Pool.Reaches A opens ⟨engine.run d request, tasks, requests, s⟩ b) {o : Outcome}
    (hdone : b.main = .done (.ok o)) (hid : o.executionId = id) :
    NewAudit.outputs (rows b.state) = NodeResult.outputs o.nodeResults ∧
      NewAudit.failures (rows b.state) ≤ NodeResult.failures o.nodeResults := by
  obtain ⟨history, hdoes, hkept⟩ := Pool.exists_history hreach hdone
  obtain ⟨row, notes, hrow, -, htold⟩ := Engine.run_does hdoes
  have hnew : rows b.state = history.kept (Call.audited id) := by
    rw [hkept _ _ rows hrows, hnone, zero_add]
  rw [hnew]
  obtain rfl : row.id = id := hrow.symm.trans hid
  exact ⟨htold.records.outputs, htold.records.failures⟩

/-! ### A store in memory -/

namespace Scene

/-- The rows that the store in memory has of the invocations of an execution. -/
def auditsOf (id : Uuid) (s : Scene) : Multiset NewAudit :=
  ((s.memory.audits.map AuditRow.toNewAudit : List NewAudit) : Multiset NewAudit).filter
    fun x => x.executionId = some id

/-- What a call may be answered if handlers and requests insert no records of invocations. -/
def Discreet (r : Role) (β : Type) (c : Call H β) (s : Scene) (reply : β) (s' : Scene) : Prop :=
  Answers r β c s reply s' ∧ ((r = .guest ∨ r = .request) → ∀ id, Call.audited id β c reply = 0)

/-- The store changes its records only when it is asked to insert one. -/
theorem audits_of_answer {c : StoreCall β} {reply : Except StoreError β} {fresh : Uuid}
    {now : Time.Instant} {m m' : Memory} (h : Memory.answer fresh now c m = (reply, m'))
    (hc : c.isAudit = false) : m'.audits = m.audits := by
  cases c with
  | insertAudit record => cases hc
  | finishExecution x f =>
      rw [Memory.answer] at h
      cases hfinish : m.finish x f now with
      | error e =>
          simp only [hfinish, Prod.mk.injEq] at h
          rw [← h.2]
      | ok p =>
          obtain ⟨applied, m₁⟩ := p
          simp only [hfinish, Prod.mk.injEq] at h
          obtain ⟨-, rfl⟩ := h
          rcases Memory.finish_eq_ok hfinish with ⟨-, rfl, -⟩ | ⟨-, rfl, -⟩ <;> rfl
  | touchLastRun x instant =>
      rw [Memory.answer, Memory.touch_eq] at h
      by_cases hw : (m.workflow? x).isSome
      · simp only [hw, if_pos, Prod.mk.injEq] at h
        rw [← h.2]
      · simp only [hw, Bool.false_eq_true, if_false, Prod.mk.injEq] at h
        rw [← h.2]
  | createExecution new =>
      simp only [Memory.answer, Prod.mk.injEq] at h
      rw [← h.2, Memory.addExecution]
  | _ =>
      simp only [Memory.answer, Prod.mk.injEq] at h
      rw [← h.2]

theorem auditsOf_of_answers {r : Role} {c : Call H β} {reply : β} {s s' : Scene}
    (h : Answers r β c s reply s') :
    s'.auditsOf id = s.auditsOf id + Call.audited id β c reply := by
  cases c with
  | store c =>
      obtain ⟨⟨fresh, now, -, h⟩, -, -⟩ := h
      by_cases hc : c.isAudit = false
      · rw [auditsOf, audits_of_answer h hc]
        cases c with
        | insertAudit record => cases hc
        | _ => exact (add_zero _).symm
      · cases c with
        | insertAudit record =>
            simp only [Memory.answer, Prod.mk.injEq] at h
            rw [auditsOf, ← h.2, List.map_append, ← Multiset.coe_add, Multiset.filter_add]
            exact congrArg _ (Multiset.filter_singleton _)
        | _ => exact absurd rfl hc
  | here c =>
      obtain ⟨-, hmem, -⟩ := h
      rw [auditsOf, hmem]
      exact (add_zero _).symm
  | clock => exact h ▸ (add_zero _).symm
  | exchange r => exact h ▸ (add_zero _).symm
  | custom x => exact h ▸ (add_zero _).symm

/-- The store in memory has a row of each record that a run inserts. -/
theorem tallies_audits (id : Uuid) :
    Tallies (Discreet (H := H)) (Call.audited id) (auditsOf id) where
  own _ _ _ _ _ _ _ h := auditsOf_of_answers h.1
  others r β c s reply s' hr h := by rw [auditsOf_of_answers h.1, h.2 hr id, add_zero]

end Scene

/-- A workflow with one step, which runs a primitive. -/
def echoingWorkflow : Definition :=
  .create ⟨0⟩ "echoing" .manual
    [⟨"start", .trigger, none, .null⟩,
      ⟨"step", .primitive, none, .obj [("primitive", .str "echo")]⟩]
    [⟨"start", "step", none, none⟩]

/-- The step succeeds with its input, which is empty, and there is one row that says so. -/
theorem echoing_tells :
    ∃ (b : Pool (Call Empty) Scene (Except RunError Outcome) Unit) (o : Outcome),
      Pool.Reaches Scene.Discreet (fun _ _ => False)
        ⟨Engine.run ⟨echoing, .standard⟩ echoingWorkflow (.plain .manual .null), [], [],
          echoingScene⟩ b ∧
      b.main = .done (.ok o) ∧
      NewAudit.outputs (b.state.auditsOf o.executionId) = {(some "step", some (.obj []))} ∧
      NewAudit.failures (b.state.auditsOf o.executionId) = 0 := by
  let now : Time.Instant := ⟨0, 0⟩
  let request : RunRequest := .plain .manual .null
  let row := (request.toNew ⟨0⟩).toRow ⟨0⟩ now
  let p : Primitive := ⟨⟨0⟩, "echo", "test", [], 1000, true, "1"⟩
  let site : CallSite := ⟨some row.id, some ⟨0⟩, some "step", some row.id⟩
  let new := Adapter.record p (.obj []) site now now (.ok (.obj []))
  -- The memory and the scene after each of the calls that change them.
  let m₁ := Memory.empty.addExecution row
  let m₂ : Memory := { m₁ with audits := [⟨new, ⟨1⟩⟩] }
  let f : Finish := ⟨.completed, some (.obj [("start", .null), ("step", .obj [])]), none⟩
  let s₁ : Scene := ⟨m₁, echoingScene.here, [(.owner, .created (.ok row))]⟩
  let s₂ : Scene := ⟨m₁, ⟨[p], [row.id], []⟩, s₁.log ++ [(.owner, .registered row.id)]⟩
  let s₃ : Scene := { s₂ with log := s₂.log ++ [(.owner, .found row.id (.ok (some row)))] }
  let s₄ : Scene := { s₃ with memory := m₂ }
  let s₅ : Scene := ⟨m₂.ended row.id f now, s₄.here,
    s₄.log ++ [(.owner, .finished row.id f (.ok true))]⟩
  let s₆ : Scene := { s₅ with log := s₅.log ++ [(.owner, .touched ⟨0⟩ now)] }
  let s₇ : Scene := ⟨s₆.memory, ⟨[p], [], []⟩, s₆.log ++ [(.owner, .unregistered row.id)]⟩
  have howner : ∀ {β : Type} {c : Call Empty β} {reply s s'}, Scene.Answers .owner β c s reply s' →
      Scene.Discreet .owner β c s reply s' := fun h => ⟨h, by rintro (h | h) <;> cases h⟩
  have hclock : ∀ s, Scene.Discreet .owner _ (.clock : Call Empty _) s now s := fun s => howner rfl
  have hasked : ∀ s : Scene, s.here.stopped = [] →
      Scene.Discreet .owner _ (.here (.isStopped row.id) : Call Empty _) s false s := fun s hs =>
    howner ⟨by simp [Local.answer, hs], rfl, (List.append_nil _).symm⟩
  have hcreate : Scene.Discreet .owner _
      (.store (.createExecution (request.toNew ⟨0⟩)) : Call Empty _) echoingScene (.ok row) s₁ :=
    howner ⟨⟨⟨0⟩, now, ⟨rfl, by simp [echoingScene], by simp [echoingScene]⟩, rfl⟩, rfl, rfl⟩
  have hregister : Scene.Discreet .owner _ (.here (.register row.id) : Call Empty _) s₁ () s₂ :=
    howner ⟨rfl, rfl, rfl⟩
  have hfound : Scene.Discreet .owner _ (.store (.getExecution row.id) : Call Empty _) s₂
      (.ok (some row)) s₃ :=
    howner ⟨⟨⟨1⟩, now, ⟨rfl, by simp [s₂, row], by simp [s₂]⟩, rfl⟩, rfl, rfl⟩
  have hcached : Scene.Discreet .owner _ (.here (.cachedByName "echo") : Call Empty _) s₃ (some p)
      s₃ := howner ⟨rfl, rfl, rfl⟩
  have hinsert : Scene.Discreet .owner _ (.store (.insertAudit new) : Call Empty _) s₃
      (.ok ()) s₄ :=
    howner ⟨⟨⟨1⟩, now, ⟨rfl, by simp [s₃, s₂, row], by simp [s₃, s₂]⟩, rfl⟩, rfl, rfl⟩
  have hfinish : Scene.Discreet .owner _ (.store (.finishExecution row.id f) : Call Empty _) s₄
      (.ok true) s₅ :=
    howner ⟨⟨⟨1⟩, now, ⟨rfl, by simp [s₄, s₃, s₂, row], by simp [s₄, s₃, s₂]⟩, rfl⟩, rfl, rfl⟩
  have htouch : Scene.Discreet .owner _ (.store (.touchLastRun ⟨0⟩ now) : Call Empty _) s₅
      (.error .notFound) s₆ :=
    howner ⟨⟨⟨1⟩, now, ⟨rfl, by simp [s₅, s₄, s₃, s₂, row], by simp [s₅, s₄, s₃, s₂]⟩, rfl⟩, rfl,
      rfl⟩
  have hunregister : Scene.Discreet .owner _ (.here (.unregister row.id) : Call Empty _) s₆ () s₇ :=
    howner ⟨rfl, rfl, rfl⟩
  have hread : Pool.Reaches Scene.Discreet (fun _ _ => False)
      (⟨Engine.run ⟨echoing, .standard⟩ echoingWorkflow request, [], [], echoingScene⟩ :
        Pool (Call Empty) Scene (Except RunError Outcome) Unit) _ :=
    ((((Relation.ReflTransGen.single (.main (.ask hcreate))).tail (.main (.ask hregister))).tail
      (.main .ownStarted)).tail (.main (.own (.attempt (.ask (hclock _)))))).tail
        (.main (.own (.attempt (.ask hfound))))
  -- The trigger is visited, and then the step, for which the handler is invoked.
  have htrigger := ((hread.tail (.main (.own (.attempt (.ask (hclock _)))))).tail
    (.main (.own (.attempt (.ask (hasked _ rfl)))))).tail
      (.main (.own (.attempt (.ask (hclock _)))))
  have hstep := ((htrigger.tail (.main (.own (.attempt (.ask (hclock _)))))).tail
    (.main (.own (.attempt (.ask (hasked _ rfl)))))).tail (.main (.own (.attempt (.ask hcached))))
  have hinvoked := (((hstep.tail (.main (.own (.attempt (.ask (hclock _)))))).tail
    (.main (.own (.attempt .limitDone)))).tail (.main (.own (.attempt (.ask (hclock _)))))).tail
      (.main (.own (.attempt (.ask hinsert))))
  -- The walk is over, and the execution is ended and stamped.
  have hwalked := (hinvoked.tail (.main (.own (.attempt (.ask (hclock _)))))).tail
    (.main (.own (.attempt (.ask hfinish))))
  have hstamped := ((hwalked.tail (.main (.own (.attempt (.ask (hclock _)))))).tail
    (.main (.own (.attempt (.ask htouch))))).tail (.main (.own (.attempt (.ask (hclock _)))))
  have hover := ((hstamped.tail (.main (.own .attemptDone))).tail
    (.main (.own (.ask hunregister)))).tail (.main .ownDone)
  obtain ⟨houtputs, hfailures⟩ := outcome_tells_audits (ρ := Unit) ⟨echoing, .standard⟩
    echoingWorkflow request (Scene.tallies_audits row.id) rfl hover rfl rfl
  refine ⟨_, _, hover, rfl, houtputs.trans ?_, ?_⟩
  · rfl
  · exact Multiset.le_zero.mp hfailures

end Workflow
